import AmlService.App.Refusals
import AmlService.Core.Written

/-!
# AmlService.App.ColorReading

The colors that `lire_couleur` reads. The components are compared with 255 once `%u` has
stored them in 32 bits, so that some integers out of range pass for others.
-/

namespace AmlService

open Text Effect

/-! ### Three components -/

/-- Three numbers with commas between them. -/
def CouleurEcrite (nombre : List Char → Int → Prop) (text : List Char) (r g b : Int) : Prop :=
  ∃ tr tg tb, text = tr ++ ',' :: (tg ++ ',' :: tb) ∧ nombre tr r ∧ nombre tg g ∧ nombre tb b

/-- Digits and nothing else. -/
def Numeral (text : List Char) (n : Int) : Prop :=
  text ≠ [] ∧ (∀ c ∈ text, c.isDigit = true) ∧ n = digitsValue text

instance (text : List Char) (n : Int) : Decidable (Numeral text n) :=
  decidable_of_iff (text ≠ [] ∧ text.all Char.isDigit = true ∧ n = digitsValue text) (by simp [Numeral])

theorem Numeral.decimal {text : List Char} {n : Int} (h : Numeral text n) : Decimal text n := by
  obtain ⟨hne, hall, rfl⟩ := h
  exact @Decimal.plain [] text (by simp) hne hall

theorem CouleurEcrite.mono {nombre nombre' : List Char → Int → Prop} {text : List Char} {r g b : Int}
    (hsub : ∀ {t n}, nombre t n → nombre' t n) (h : CouleurEcrite nombre text r g b) :
    CouleurEcrite nombre' text r g b := by
  obtain ⟨tr, tg, tb, rfl, hr, hg, hb⟩ := h
  exact ⟨tr, tg, tb, rfl, hsub hr, hsub hg, hsub hb⟩

/-- A text is one color at most. -/
theorem CouleurEcrite.unique {text : List Char} {r g b r' g' b' : Int} (h : CouleurEcrite Decimal text r g b)
    (h' : CouleurEcrite Decimal text r' g' b') : r = r' ∧ g = g' ∧ b = b' := by
  obtain ⟨tr, tg, tb, rfl, hr, hg, hb⟩ := h
  obtain ⟨tr', tg', tb', hsame, hr', hg', hb'⟩ := h'
  obtain ⟨rfl, hsame⟩ := hr.unique hr' hsame (by simp) (by simp)
  obtain ⟨rfl, hsame⟩ := hg.unique hg' (List.cons.inj hsame).2 (by simp) (by simp)
  have hlast : tb ++ [] = tb' ++ [] := by simpa using hsame
  obtain ⟨rfl, -⟩ := hb.unique hb' hlast (by simp) (by simp)
  exact ⟨rfl, rfl, rfl⟩

abbrev formatCouleur : List Directive :=
  [.unsigned none, .lit ',', .unsigned none, .lit ',', .unsigned none, .char]

/-- The three numbers are stored, each in 32 bits. -/
theorem sscanf_couleur {text : List Char} {r g b : Int} (h : CouleurEcrite Decimal text r g b) :
    sscanf formatCouleur text = [(storedUnsigned r : Int), (storedUnsigned g : Int), (storedUnsigned b : Int)] := by
  obtain ⟨tr, tg, tb, rfl, hr, hg, hb⟩ := h
  have hlast : sscanf [.unsigned none, .char] (tb ++ []) = [(storedUnsigned b : Int)] :=
    sscanf_unsigned_decimal hb (by simp)
  rw [List.append_nil] at hlast
  rw [sscanf_unsigned_decimal hr (by simp), sscanf_lit_self, sscanf_unsigned_decimal hg (by simp), sscanf_lit_self,
    hlast]

/-- And only such a text gives three. -/
theorem sscanf_couleur_inv {text : List Char} {x y z : Int} (h : sscanf formatCouleur text = [x, y, z]) :
    ∃ r g b, CouleurEcrite Decimal text r g b := by
  obtain ⟨tr, rest, negr, vr, rfl, hr, -, h⟩ := sscanf_unsigned_inv h
  obtain ⟨rest, rfl, h⟩ := sscanf_lit_inv h
  obtain ⟨tg, rest, negg, vg, rfl, hg, -, h⟩ := sscanf_unsigned_inv h
  obtain ⟨rest, rfl, h⟩ := sscanf_lit_inv h
  obtain ⟨tb, rest, negb, vb, rfl, hb, -, h⟩ := sscanf_unsigned_inv h
  obtain rfl := sscanf_char_nil h
  exact ⟨_, _, _, tr, tg, tb, by simp, hr, hg, hb⟩

/-! ### The color of a request -/

/-- A component of a color. -/
abbrev Composante (n : Int) : Prop := 0 ≤ n ∧ n ≤ 255

/-- What `%u` makes a component of: `strtoul` keeps it as it is up to its sign, and its low
32 bits are a component. -/
abbrev Repliee (n : Int) : Prop := n.natAbs < 2 ^ 64 ∧ n % 2 ^ 32 ≤ 255

theorem lireCouleur_eq {value : String} {r g b : Int} (h : CouleurEcrite Decimal value.toList r g b) :
    lireCouleur value =
      if Repliee r ∧ Repliee g ∧ Repliee b then
        some (UInt8.ofNat (storedUnsigned r), UInt8.ofNat (storedUnsigned g), UInt8.ofNat (storedUnsigned b))
      else none := by
  have hread := sscanf_couleur h
  unfold lireCouleur
  rw [hread]
  simp only [← storedUnsigned_le, ofInt_natCast]
  split
  · rw [if_neg (by omega)]
  · rw [if_pos (by omega)]

theorem lireCouleur_ecrite {value : String} {couleur : UInt8 × UInt8 × UInt8} (h : lireCouleur value = some couleur) :
    ∃ r g b, CouleurEcrite Decimal value.toList r g b := by
  unfold lireCouleur at h
  split at h
  · next hread => exact sscanf_couleur_inv hread
  · cases h

/-- The request is the call of its handler. -/
theorem requeteCouleur_eq {textes : Textes} {arg : JsonValue} {value : String} (s : Service)
    (htext : jsonObjectGetString textes arg = some value) :
    handlersRequest textes "Mood/Color" [arg] s =
      sansResultat (match lireCouleur value with
        | none => echec "INVALID_VALUE" "Couleur attendue au format R,G,B (0 a 255)"
        | some (red, green, blue) => verifier (controlMoodColor red green blue)) s := by
  have hvalue : valeurAcceptee textes (enfant moodGroup "Color") [arg] s = (.ok value, s) := by
    rw [valeurAcceptee, htext]
    rfl
  exact bind_run_ok (f := fun value => CommandHandler.ecrireLumiere.call (enfant moodGroup "Color") moodGroup value) hvalue

theorem composante_octet (byte : UInt8) : Composante byte.toNat := by
  have hbyte := byte.toNat_lt
  omega

/-- A component is stored as it is, and fits in a byte. -/
theorem octet_composante {n : Int} (h : Composante n) : ((UInt8.ofNat (storedUnsigned n)).toNat : Int) = n := by
  have hstored := storedUnsigned_octet h
  rw [UInt8.toNat_ofNat_of_lt' (show storedUnsigned n < 256 by omega), hstored]

/-- What is promised of a text: the color read is three components, written as such; three
plain numerals that are components are read; a color read is sent, and nothing else; a text
refused sends nothing. -/
structure CouleurTenue (value : String) : Prop where
  ecrite : ∀ red green blue, lireCouleur value = some (red, green, blue) →
    CouleurEcrite Decimal value.toList red.toNat green.toNat blue.toNat
  lue : ∀ r g b, CouleurEcrite Numeral value.toList r g b → Composante r → Composante g → Composante b →
    (lireCouleur value).isSome = true
  envoyee : ∀ textes arg red green blue, jsonObjectGetString textes arg = some value →
    lireCouleur value = some (red, green, blue) →
    Ecrit (fun _ => True) (fun request => protocolBuildRequest amlReqMoodColor [red, green, blue] requestBufferSize =
      some request) (handlersRequest textes "Mood/Color" [arg])
  refusee : ∀ textes arg s, jsonObjectGetString textes arg = some value → lireCouleur value = none →
    handlersRequest textes "Mood/Color" [arg] s =
      (.error ⟨"INVALID_VALUE", "Couleur attendue au format R,G,B (0 a 255)"⟩, s)

/-- **A text is read as a color it denotes**, except where components out of range pass for
others. -/
theorem couleurTenue_iff (value : String) :
    CouleurTenue value ↔
      ∀ r g b, CouleurEcrite Decimal value.toList r g b → Repliee r → Repliee g → Repliee b →
        Composante r ∧ Composante g ∧ Composante b := by
  constructor
  · intro h r g b hecrite hr hg hb
    have hread := lireCouleur_eq hecrite
    rw [if_pos ⟨hr, hg, hb⟩] at hread
    obtain ⟨hred, hgreen, hblue⟩ := (h.ecrite _ _ _ hread).unique hecrite
    exact ⟨hred ▸ composante_octet _, hgreen ▸ composante_octet _, hblue ▸ composante_octet _⟩
  · intro h
    refine ⟨fun red green blue hread => ?_, fun r g b hecrite hr hg hb => ?_, ?_, ?_⟩
    · obtain ⟨r, g, b, hecrite⟩ := lireCouleur_ecrite hread
      rw [lireCouleur_eq hecrite] at hread
      split at hread
      · next hrepliee =>
        obtain ⟨hr, hg, hb⟩ := h r g b hecrite hrepliee.1 hrepliee.2.1 hrepliee.2.2
        cases hread
        rwa [octet_composante hr, octet_composante hg, octet_composante hb]
      · cases hread
    · rw [lireCouleur_eq (hecrite.mono Numeral.decimal), if_pos (by omega)]
      rfl
    · intro textes arg red green blue htext hread s
      rw [requeteCouleur_eq s htext, hread]
      exact ((envoyer_ecrit fun _ hbuild => ⟨trivial, hbuild⟩).mapError erreurAml).before_pure _ s
    · intro textes arg s htext hread
      rw [requeteCouleur_eq s htext, hread]
      rfl

/-- 4294967296 passes for 0. -/
theorem couleurTenue_debordement : ¬ CouleurTenue "4294967296,0,0" := by
  intro h
  have hnumerals : CouleurEcrite Numeral "4294967296,0,0".toList 4294967296 0 0 :=
    ⟨"4294967296".toList, "0".toList, "0".toList, by decide, by decide +kernel, by decide +kernel, by decide +kernel⟩
  have hread : lireCouleur "4294967296,0,0" = some (0, 0, 0) := by decide +kernel
  obtain ⟨hred, -⟩ := (h.ecrite _ _ _ hread).unique (hnumerals.mono Numeral.decimal)
  exact absurd hred (by decide)

end AmlService
