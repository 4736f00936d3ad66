import AmlService.Core.Config
import Mathlib.Data.Fin.Tuple.Basic
import Mathlib.Data.List.Forall2

/-!
# AmlService.Core.Devices

What the configuration holds once it is loaded. A document is accepted exactly when it is
valid, entry by entry; its devices then pass the checks that `aml_connect` makes of them, and
each of them is found by its name.
-/

namespace AmlService

open Effect

/-! ### Texts -/

theorem strlen_eq_length {text : List UInt8} : strlen text = text.length ↔ 0 ∉ text := by
  unfold strlen
  induction text with
  | nil => simp
  | cons c text ih =>
    by_cases hc : c = 0
    · simp [hc]
    · simpa [hc, Ne.symm hc] using ih

/-- `n + 1` pairs of hexadecimal digits, a colon between them. -/
def HexPairs : Nat → List UInt8 → Prop
  | 0, text => ∃ a b, text = [a, b] ∧ isHex a ∧ isHex b
  | n + 1, text => ∃ a b rest, text = a :: b :: 58 :: rest ∧ isHex a ∧ isHex b ∧ HexPairs n rest

/-- The form `XX:XX:XX:XX:XX:XX`. -/
def MacForm (mac : String) : Prop := HexPairs 5 (bytes mac)

theorem isHex_ne_zero {c : UInt8} (h : isHex c = true) : c ≠ 0 := by
  intro hc
  rw [hc] at h
  revert h
  decide

theorem HexPairs.length {n : Nat} {text : List UInt8} (h : HexPairs n text) : text.length = 3 * n + 2 := by
  induction n generalizing text with
  | zero =>
    obtain ⟨a, b, rfl, -⟩ := h
    rfl
  | succ n ih =>
    obtain ⟨a, b, rest, rfl, -, -, hrest⟩ := h
    simp [ih hrest]
    omega

theorem HexPairs.no_nul {n : Nat} {text : List UInt8} (h : HexPairs n text) : 0 ∉ text := by
  induction n generalizing text with
  | zero =>
    obtain ⟨a, b, rfl, ha, hb⟩ := h
    simp [(isHex_ne_zero ha).symm, (isHex_ne_zero hb).symm]
  | succ n ih =>
    obtain ⟨a, b, rest, rfl, ha, hb, hrest⟩ := h
    simp [(isHex_ne_zero ha).symm, (isHex_ne_zero hb).symm, ih hrest]

/-- The characters that `valid_mac` looks at, three by three. -/
theorem macChar_cons {a b c : UInt8} {rest : List UInt8} {k : Nat} :
    (∀ i < k + 3, macChar (a :: b :: c :: rest) i = true) ↔
      isHex a = true ∧ isHex b = true ∧ c = 58 ∧ ∀ i < k, macChar rest i = true := by
  have hnext : ∀ i, macChar (a :: b :: c :: rest) (i + 3) = macChar rest i := fun i => by simp [macChar]
  constructor
  · intro h
    have ha := h 0 (by omega)
    have hb := h 1 (by omega)
    have hc := h 2 (by omega)
    refine ⟨by simpa [macChar] using ha, by simpa [macChar] using hb, by simpa [macChar] using hc, ?_⟩
    intro i hi
    rw [← hnext]
    exact h (i + 3) (by omega)
  · intro h i hi
    obtain ⟨ha, hb, hc, hrest⟩ := h
    match i with
    | 0 => simpa [macChar] using ha
    | 1 => simpa [macChar] using hb
    | 2 => simpa [macChar] using hc
    | i + 3 =>
      rw [hnext]
      exact hrest i (by omega)

/-- The last pair. -/
theorem macChar_pair {a b : UInt8} :
    (∀ i < 2, macChar [a, b] i = true) ↔ isHex a = true ∧ isHex b = true := by
  constructor
  · intro h
    have ha := h 0 (by decide)
    have hb := h 1 (by decide)
    exact ⟨by simpa [macChar] using ha, by simpa [macChar] using hb⟩
  · intro h i hi
    match i with
    | 0 => simpa [macChar] using h.1
    | 1 => simpa [macChar] using h.2

/-- **The checks of `valid_mac`**, character by character. -/
theorem hexPairs_iff {n : Nat} {text : List UInt8} :
    HexPairs n text ↔ text.length = 3 * n + 2 ∧ ∀ i < 3 * n + 2, macChar text i = true := by
  induction n generalizing text with
  | zero =>
    constructor
    · intro h
      obtain ⟨a, b, rfl, hpair⟩ := h
      exact ⟨rfl, macChar_pair.mpr hpair⟩
    · intro h
      obtain ⟨hlength, hchars⟩ := h
      match text, hlength with
      | [a, b], _ => exact ⟨a, b, rfl, macChar_pair.mp hchars⟩
  | succ n ih =>
    constructor
    · intro h
      obtain ⟨a, b, rest, rfl, ha, hb, hrest⟩ := h
      obtain ⟨hlength, hchars⟩ := ih.mp hrest
      refine ⟨?_, macChar_cons.mpr ⟨ha, hb, rfl, hchars⟩⟩
      simp only [List.length_cons, hlength]
      omega
    · intro h
      obtain ⟨hlength, hchars⟩ := h
      match text, hlength with
      | a :: b :: c :: rest, hlength =>
        simp only [List.length_cons] at hlength
        obtain ⟨ha, hb, rfl, hrest⟩ := macChar_cons.mp hchars
        exact ⟨a, b, rest, rfl, ha, hb, ih.mpr ⟨by omega, hrest⟩⟩

theorem validMac_iff {mac : String} (h : 0 ∉ bytes mac) : validMac mac = true ↔ MacForm mac := by
  have hchars : (List.range 17).all (macChar (bytes mac)) = true ↔
      ∀ i < 3 * 5 + 2, macChar (bytes mac) i = true := by simp
  unfold validMac MacForm
  rw [hexPairs_iff, ← hchars, strlen_eq_length.mpr h]
  by_cases hlength : (bytes mac).length = 17 <;> simp [hlength]

/-! ### Fields -/

/-- A field that is a text shorter than `capacity`, not empty, without NUL. -/
structure TextField (entry : JsonValue) (key : String) (capacity : Nat) (text : String) : Prop where
  value : entry.get? key = some (.str text)
  nonempty : 1 ≤ (bytes text).length
  fits : (bytes text).length < capacity
  no_nul : 0 ∉ bytes text

theorem readString_ok {object : JsonValue} {key text : String} {capacity : Nat} :
    readString object key capacity = .ok text ↔ TextField object key capacity text := by
  constructor
  · intro h
    unfold readString at h
    split at h
    · next value hvalue =>
      dsimp only at h
      split at h
      · cases h
      · next hlength =>
        split at h
        · cases h
        · next hnul =>
          cases h
          exact ⟨hvalue, by omega, by omega, strlen_eq_length.mp (not_not.mp hnul)⟩
    · cases h
  · intro h
    have hlength : ¬ ((bytes text).length = 0 ∨ (bytes text).length ≥ capacity) := by
      have := h.nonempty
      have := h.fits
      omega
    have hnul : ¬ strlen (bytes text) ≠ (bytes text).length := not_not.mpr (strlen_eq_length.mpr h.no_nul)
    rw [readString, h.value]
    dsimp only
    rw [if_neg hlength, if_neg hnul]

/-- A field that is an integer from 1 to 30. -/
structure ChannelField (entry : JsonValue) (channel : Int) : Prop where
  value : entry.get? "AML_CHN" = some (.int channel)
  range : 1 ≤ channel ∧ channel ≤ 30

theorem readChannel_ok {object : JsonValue} {channel : Int} :
    readChannel object = .ok channel ↔ ChannelField object channel := by
  constructor
  · intro h
    unfold readChannel at h
    split at h
    · next n hvalue =>
      dsimp only at h
      split at h
      · cases h
      · next hrange =>
        cases h
        -- a number out of the range of an `int` is not brought back to one from 1 to 30
        have hn : jsonObjectGetInt n = n := by
          unfold jsonObjectGetInt at hrange ⊢
          omega
        rw [hn] at hrange ⊢
        exact ⟨hvalue, by omega⟩
    · cases h
  · intro h
    obtain ⟨hmin, hmax⟩ := h.range
    have hn : jsonObjectGetInt channel = channel := by
      unfold jsonObjectGetInt
      omega
    rw [readChannel, h.value]
    dsimp only
    rw [hn, if_neg (by omega)]

/-- An entry of the document, and the device it is for. -/
structure Entry (entry : JsonValue) (device : AmlConfig) : Prop where
  name : TextField entry "name" configNameMax device.name
  amlMac : entry.get? "AML_MAC" = some (.str device.amlMac) ∧ MacForm device.amlMac
  amlChn : ChannelField entry device.amlChn
  bltMac : entry.get? "BLT_MAC" = some (.str device.bltMac) ∧ MacForm device.bltMac

theorem macField {entry : JsonValue} {key mac : String} :
    (entry.get? key = some (.str mac) ∧ MacForm mac) ↔
      TextField entry key configMacLength mac ∧ validMac mac = true := by
  constructor
  · intro h
    obtain ⟨hvalue, hform⟩ := h
    have hlength : (bytes mac).length = 17 := hform.length
    refine ⟨⟨hvalue, by omega, hlength.trans_lt (by decide), hform.no_nul⟩, ?_⟩
    exact (validMac_iff hform.no_nul).mpr hform
  · intro h
    obtain ⟨htext, hvalid⟩ := h
    exact ⟨htext.value, (validMac_iff htext.no_nul).mp hvalid⟩

/-! ### One entry -/

/-- A field that is read and put in the device. -/
theorem store_run {α β : Type} {r : Except String α} {f : α → AmlConfig → AmlConfig}
    {m : α → Fallible String AmlConfig β} {device last : AmlConfig} {b : β} :
    (do
      let a ← r
      Fallible.act (f a)
      m a : Fallible String AmlConfig β) device = (.ok b, last) ↔
      ∃ a, r = .ok a ∧ m a (f a device) = (.ok b, last) := by
  cases r with
  | ok a => exact ⟨fun h => ⟨a, rfl, h⟩, fun ⟨_, heq, h⟩ => by cases heq; exact h⟩
  | error e => exact ⟨fun h => (by cases h), fun ⟨_, heq, _⟩ => by cases heq⟩

/-- **`parse_device` accepts the entries that are valid**, and gives their device. -/
theorem parseDevice_ok {entry : JsonValue} {device device' : AmlConfig} :
    parseDevice entry device = (.ok (), device') ↔ Entry entry device' := by
  cases entry with
  | obj fields =>
    unfold parseDevice
    dsimp only
    constructor
    · intro h
      obtain ⟨name, hname, h⟩ := store_run.mp h
      obtain ⟨amlMac, haml, h⟩ := store_run.mp h
      obtain ⟨amlChn, hchannel, h⟩ := store_run.mp h
      obtain ⟨bltMac, hblt, h⟩ := store_run.mp h
      rw [readString_ok] at hname haml hblt
      by_cases hamlValid : validMac amlMac = true
      · by_cases hbltValid : validMac bltMac = true
        · rw [if_pos hamlValid, if_pos hbltValid] at h
          cases h
          exact ⟨hname, macField.mpr ⟨haml, hamlValid⟩, readChannel_ok.mp hchannel,
            macField.mpr ⟨hblt, hbltValid⟩⟩
        · rw [if_pos hamlValid, if_neg hbltValid] at h
          cases h
      · rw [if_neg hamlValid] at h
        cases h
    · intro h
      obtain ⟨haml, hamlValid⟩ := macField.mp h.amlMac
      obtain ⟨hblt, hbltValid⟩ := macField.mp h.bltMac
      refine store_run.mpr ⟨device'.name, readString_ok.mpr h.name, ?_⟩
      refine store_run.mpr ⟨device'.amlMac, readString_ok.mpr haml, ?_⟩
      refine store_run.mpr ⟨device'.amlChn, readChannel_ok.mpr h.amlChn, ?_⟩
      refine store_run.mpr ⟨device'.bltMac, readString_ok.mpr hblt, ?_⟩
      rw [if_pos hamlValid, if_pos hbltValid]
      rfl
  | _ =>
    constructor
    · intro h
      cases h
    · intro h
      cases h.name.value

/-! ### The loop -/

section Loop

variable {entry : JsonValue} {entries : List JsonValue} {config config' : AppConfig}

/-- **One entry that is refused**, or whose name is one of those before. -/
theorem loadEntries_failed {i : Nat} {h : i + entries.length ≤ configMaxAmls} {message : String}
    (hrun : loadEntries entries i h config = (.error message, config')) : config'.count = 0 := by
  induction entries generalizing i config with
  | nil => cases hrun
  | cons entry entries ih =>
    unfold loadEntries at hrun
    dsimp only at hrun
    split at hrun
    · cases hrun
      rfl
    · split at hrun
      · cases hrun
        rfl
      · exact ih hrun

/-- **One entry that is taken**: it is valid, and its name is not one of those before. -/
theorem loadEntries_cons {slot : Fin configMaxAmls}
    {h : slot.val + (entry :: entries).length ≤ configMaxAmls}
    {hrest : slot.val + 1 + entries.length ≤ configMaxAmls} :
    loadEntries (entry :: entries) slot.val h config = (.ok (), config') ↔
      ∃ device, Entry entry device ∧ (∀ j < slot, (config.devices j).name ≠ device.name) ∧
        loadEntries entries (slot.val + 1) hrest (config.put slot device) = (.ok (), config') := by
  have hnames : ∀ device, (∃ j < slot, ((config.put slot device).devices j).name =
      ((config.put slot device).devices slot).name) ↔
        ∃ j < slot, (config.devices j).name = device.name := by
    intro device
    refine exists_congr fun j => and_congr_right fun hj => ?_
    simp [Fin.ne_of_lt hj]
  rw [loadEntries]
  dsimp only
  constructor
  · intro hrun
    split at hrun
    · cases hrun
    · next device hparse =>
      split at hrun
      · cases hrun
      · next hfresh =>
        refine ⟨device, parseDevice_ok.mp hparse, ?_, hrun⟩
        intro j hj heq
        exact hfresh ((hnames device).mpr ⟨j, hj, heq⟩)
  · intro h
    obtain ⟨device, hentry, hfresh, hrun⟩ := h
    rw [parseDevice_ok.mpr hentry]
    dsimp only
    rw [if_neg, hrun]
    intro hdup
    obtain ⟨j, hj, heq⟩ := (hnames device).mp hdup
    exact hfresh j hj heq

/-- A configuration where these devices are written, from place `i` on. -/
def AppConfig.filled (config : AppConfig) (i : Nat) (devices : List AmlConfig) : AppConfig :=
  { config with
    devices := fun j =>
      if i ≤ j.val then (devices[j.val - i]?).getD (config.devices j) else config.devices j }

@[simp] theorem AppConfig.filled_nil (i : Nat) : config.filled i [] = config := by
  simp [filled]

theorem AppConfig.filled_cons (slot : Fin configMaxAmls) (device : AmlConfig) (devices : List AmlConfig) :
    (config.put slot device).filled (slot.val + 1) devices = config.filled slot.val (device :: devices) := by
  have hdevices : ((config.put slot device).filled (slot.val + 1) devices).devices =
      (config.filled slot.val (device :: devices)).devices := by
    funext j
    unfold filled
    dsimp only
    rw [put_devices]
    rcases Nat.lt_trichotomy j.val slot.val with hlt | heq | hgt
    · rw [if_neg (Nat.not_le.mpr (Nat.lt_succ_of_lt hlt)), if_neg (Nat.not_le.mpr hlt),
        if_neg (Fin.ne_of_lt hlt)]
    · obtain rfl := Fin.ext heq
      rw [if_neg (Nat.not_succ_le_self j.val), if_pos rfl, if_pos (Nat.le_refl j.val), Nat.sub_self]
      rfl
    · obtain ⟨k, hk⟩ : ∃ k, j.val - slot.val = k + 1 := ⟨j.val - slot.val - 1, by omega⟩
      have hk' : j.val - (slot.val + 1) = k := by omega
      rw [if_pos (Nat.succ_le_of_lt hgt), if_pos (Nat.le_of_lt hgt), if_neg (Fin.ne_of_lt hgt).symm,
        hk, hk', List.getElem?_cons_succ]
  unfold filled at hdevices ⊢
  dsimp only at hdevices
  rw [hdevices]
  rfl

/-- The names of some devices are not among the first ones, once another is put after these. -/
theorem AppConfig.put_fresh {slot : Fin configMaxAmls} {device : AmlConfig} {devices : List AmlConfig} :
    (∀ d ∈ devices, ∀ j : Fin configMaxAmls, j.val < slot.val + 1 →
        ((config.put slot device).devices j).name ≠ d.name) ↔
      device.name ∉ devices.map AmlConfig.name ∧
        ∀ d ∈ devices, ∀ j : Fin configMaxAmls, j.val < slot.val →
          (config.devices j).name ≠ d.name := by
  constructor
  · intro h
    refine ⟨?_, ?_⟩
    · intro hmem
      obtain ⟨d, hd, heq⟩ := List.mem_map.mp hmem
      exact h d hd slot (Nat.lt_succ_self _) (by simp [heq])
    · intro d hd j hj
      have hne := h d hd j (Nat.lt_succ_of_lt hj)
      rwa [put_devices, if_neg (Fin.ne_of_lt hj)] at hne
  · intro h d hd j hj
    obtain ⟨hnew, hold⟩ := h
    rw [put_devices]
    by_cases heq : j = slot
    · rw [if_pos heq]
      intro hname
      exact hnew (hname ▸ List.mem_map_of_mem hd)
    · rw [if_neg heq]
      exact hold d hd j (Nat.lt_of_le_of_ne (Nat.le_of_lt_succ hj) (Fin.val_ne_of_ne heq))

/-- **The loop**: the entries are valid, no name is there twice, and the devices are written
where the loop has come to. -/
theorem loadEntries_ok {i : Nat} {h : i + entries.length ≤ configMaxAmls} :
    loadEntries entries i h config = (.ok (), config') ↔
      ∃ devices, List.Forall₂ Entry entries devices ∧ (devices.map AmlConfig.name).Nodup ∧
        (∀ device ∈ devices, ∀ j : Fin configMaxAmls, j.val < i →
          (config.devices j).name ≠ device.name) ∧
        config' = config.filled i devices := by
  induction entries generalizing i config with
  | nil =>
    constructor
    · intro hrun
      obtain ⟨-, rfl⟩ := Prod.mk.inj hrun
      exact ⟨[], .nil, List.nodup_nil, by simp, by simp⟩
    · intro hloaded
      obtain ⟨devices, hentries, -, -, rfl⟩ := hloaded
      cases hentries
      rw [AppConfig.filled_nil]
      rfl
  | cons entry entries ih =>
    have hbounds : i < configMaxAmls ∧ i + 1 + entries.length ≤ configMaxAmls := by
      rw [List.length_cons] at h
      omega
    refine (@loadEntries_cons entry entries config config' ⟨i, hbounds.1⟩ h hbounds.2).trans ?_
    constructor
    · intro hrun
      obtain ⟨device, hentry, hfresh, hrun⟩ := hrun
      obtain ⟨devices, hentries, hnodup, hothers, rfl⟩ := ih.mp hrun
      obtain ⟨hnew, hold⟩ := AppConfig.put_fresh.mp hothers
      refine ⟨device :: devices, .cons hentry hentries, ?_, ?_, AppConfig.filled_cons _ _ _⟩
      · rw [List.map_cons]
        exact List.nodup_cons.mpr ⟨hnew, hnodup⟩
      · exact List.forall_mem_cons.mpr ⟨hfresh, hold⟩
    · intro hloaded
      obtain ⟨devices, hentries, hnodup, hothers, rfl⟩ := hloaded
      obtain ⟨device, devices, rfl⟩ : ∃ device rest, devices = device :: rest := by
        cases hentries
        exact ⟨_, _, rfl⟩
      obtain ⟨hentry, hentries⟩ := List.forall₂_cons.mp hentries
      rw [List.map_cons, List.nodup_cons] at hnodup
      obtain ⟨hfresh, hold⟩ := List.forall_mem_cons.mp hothers
      refine ⟨device, hentry, hfresh, ih.mpr ⟨devices, hentries, hnodup.2, ?_, ?_⟩⟩
      · exact AppConfig.put_fresh.mpr ⟨hnodup.1, hold⟩
      · exact (AppConfig.filled_cons ⟨i, hbounds.1⟩ device devices).symm

end Loop

/-! ### The document -/

/-- A valid document, and its devices. -/
structure Document (root : JsonValue) (devices : List AmlConfig) : Prop where
  entries : ∃ items, root = .arr items ∧ List.Forall₂ Entry items devices
  size : 1 ≤ devices.length ∧ devices.length ≤ configMaxAmls
  distinct : (devices.map AmlConfig.name).Nodup

section Load

variable {path : String} {root : JsonValue} {config config' : AppConfig}

theorem Document.length_eq {items : List JsonValue} {devices : List AmlConfig}
    (h : Document (.arr items) devices) : items.length = devices.length := by
  obtain ⟨_, heq, hentries⟩ := h.entries
  cases heq
  exact hentries.length_eq

/-- Either the loop is run, or the document is refused before. -/
theorem loadRoot_cases (path : String) (root : JsonValue) (config : AppConfig) :
    (∃ items, ∃ hsize : 0 + items.length ≤ configMaxAmls, root = .arr items ∧ items.length ≠ 0 ∧
      loadRoot path root config = (do
        loadEntries items 0 hsize
        Fallible.act fun config => { config with count := items.length } :
          Fallible String AppConfig Unit) { config with count := 0 }) ∨
    (∀ devices, ¬ Document root devices) ∧
      ∃ message, loadRoot path root config = (.error message, { config with count := 0 }) := by
  cases root with
  | arr items =>
    unfold loadRoot
    dsimp only
    rw [bind_run_ok (rfl : Fallible.act _ config = _)]
    by_cases hempty : items.length = 0
    · refine .inr ⟨?_, _, by rw [if_pos hempty]; rfl⟩
      intro devices hdocument
      have hmin := hdocument.size.1
      rw [← hdocument.length_eq] at hmin
      omega
    by_cases hbig : items.length ≤ configMaxAmls
    · exact .inl ⟨items, by omega, rfl, hempty, by rw [if_neg hempty, dif_pos hbig]⟩
    · refine .inr ⟨?_, _, by rw [if_neg hempty, dif_neg hbig]; rfl⟩
      intro devices hdocument
      have hmax := hdocument.size.2
      rw [← hdocument.length_eq] at hmax
      exact hbig hmax
  | _ =>
    refine .inr ⟨?_, _, rfl⟩
    intro devices hdocument
    obtain ⟨items, heq, -⟩ := hdocument.entries
    cases heq

/-- **What `config_load` accepts**, and what it leaves. -/
theorem loadRoot_ok : loadRoot path root config = (.ok (), config') ↔
    ∃ devices, Document root devices ∧
      config' = { config.filled 0 devices with count := devices.length } := by
  rcases loadRoot_cases path root config with ⟨items, hsize, rfl, hempty, heq⟩ | ⟨hinvalid, message, heq⟩ <;>
    rw [heq]
  · constructor
    · intro h
      obtain ⟨_, mid, hload, hcount⟩ := bind_run_inv h
      obtain ⟨devices, hentries, hnodup, -, rfl⟩ := loadEntries_ok.mp hload
      have hlength := hentries.length_eq
      obtain ⟨-, rfl⟩ := Prod.mk.inj hcount
      refine ⟨devices, ⟨⟨items, rfl, hentries⟩, by omega, hnodup⟩, ?_⟩
      rw [hlength]
      rfl
    · intro h
      obtain ⟨devices, hdocument, rfl⟩ := h
      have hlength := hdocument.length_eq
      obtain ⟨_, hitems, hentries⟩ := hdocument.entries
      cases hitems
      refine (bind_run_ok (loadEntries_ok.mpr ⟨devices, hentries, hdocument.distinct, ?_, rfl⟩)).trans ?_
      · intro device _ j hj
        exact absurd hj (Nat.not_lt_zero _)
      · rw [hlength]
        rfl
  · refine ⟨fun h => (by cases h), ?_⟩
    intro h
    obtain ⟨devices, hdocument, -⟩ := h
    exact absurd hdocument (hinvalid devices)

/-- **Nothing can be chosen after a failure.** -/
theorem loadRoot_failed {message : String} (h : loadRoot path root config = (.error message, config')) :
    config'.count = 0 := by
  rcases loadRoot_cases path root config with ⟨items, hsize, -, -, heq⟩ | ⟨-, message', heq⟩ <;>
    rw [heq] at h
  · rw [bind_run] at h
    rcases hload : loadEntries items 0 hsize { config with count := 0 } with ⟨message' | _, mid⟩ <;>
      rw [hload] at h <;> cases h
    exact loadEntries_failed hload
  · cases h
    rfl

end Load

/-! ### The choice -/

section Select

variable {config : AppConfig}

theorem configSelect_empty (h : config.count = 0) (name : Option String) :
    configSelect (some config) name = none := by
  unfold configSelect
  dsimp only
  rw [if_pos h]

/-- Without a name, the first device. -/
theorem configSelect_first (h : config.count ≠ 0) :
    configSelect (some config) none = some 0 ∧ configSelect (some config) (some "") = some 0 := by
  unfold configSelect
  dsimp only
  rw [if_neg h, if_neg h]
  exact ⟨rfl, rfl⟩

theorem configSelect_search {name : String} (hcount : config.count ≠ 0) (hname : name ≠ "") :
    configSelect (some config) (some name) =
      Fin.find? fun i => decide (i.val < config.count) && (config.devices i).name == name := by
  unfold configSelect
  dsimp only
  rw [if_neg hcount]
  split
  · next heq => cases heq
  · next heq => exact absurd (Option.some.inj heq) hname
  · next heq => rw [Option.some.inj heq]

/-- **The name of a device finds it**, if no other device before has it. -/
theorem configSelect_name {i : Fin configMaxAmls} (hi : i.val < config.count)
    (hname : (config.devices i).name ≠ "")
    (hfirst : ∀ j < i, (config.devices j).name ≠ (config.devices i).name) :
    configSelect (some config) (some (config.devices i).name) = some i := by
  rw [configSelect_search (by omega) hname, Fin.find?_eq_some_iff]
  refine ⟨by simp [hi], ?_⟩
  intro j hj
  simp [hfirst j hj]

/-- **A name that no device has.** -/
theorem configSelect_absent {name : String} (hname : name ≠ "")
    (h : ∀ i : Fin configMaxAmls, i.val < config.count → (config.devices i).name ≠ name) :
    configSelect (some config) (some name) = none := by
  by_cases hcount : config.count = 0
  · exact configSelect_empty hcount (some name)
  · rw [configSelect_search hcount hname, Fin.find?_eq_none_iff]
    intro i
    by_cases hi : i.val < config.count <;> simp [hi, h]

end Select

/-! ### The connection -/

/-- An outcome that `str2ba` allows: an address is refused only if `str2ba` refuses it. -/
def ConnectOutcome.Allowed (str2ba : String → Bool) (device : AmlConfig) : ConnectOutcome → Prop
  | .bltMacInvalid => str2ba device.bltMac = false
  | .amlMacInvalid => str2ba device.amlMac = false
  | _ => True

/-- **A device of the document passes the checks of `aml_connect`**, which are what
`AML_ERR_GENERIC` is for. -/
theorem amlConnect_entry {str2ba : String → Bool} (hstr2ba : ∀ mac, MacForm mac → str2ba mac = true)
    {entry : JsonValue} {device : AmlConfig} (hentry : Entry entry device) (connection : AmlConnection)
    {world : World} (hworld : ∀ outcome ∈ world.connects.head?, outcome.Allowed str2ba device) :
    (amlConnect connection device world).1 ≠ .error .generic := by
  have hmac : ∀ mac, MacForm mac → mac ≠ "" := by
    intro mac hform heq
    have hlength := hform.length
    rw [heq] at hlength
    cases hlength
  obtain ⟨hmin, hmax⟩ := hentry.amlChn.range
  have hchecks : ¬ (device.bltMac = "" ∨ device.amlMac = "" ∨ device.amlChn < 1 ∨
      device.amlChn > 30) := by
    have := hmac _ hentry.bltMac.2
    have := hmac _ hentry.amlMac.2
    grind
  unfold amlConnect
  dsimp only
  rw [if_neg hchecks]
  match hconnects : world.connects with
  | [] => simp
  | outcome :: rest =>
    have hallowed := hworld outcome (by simp [hconnects])
    cases outcome with
    | bltMacInvalid => cases (hstr2ba _ hentry.bltMac.2).symm.trans hallowed
    | amlMacInvalid => cases (hstr2ba _ hentry.amlMac.2).symm.trans hallowed
    | _ => simp [ConnectOutcome.result]

/-! ### A configuration loaded -/

/-- What the configuration is once these devices are loaded. -/
structure Loaded (str2ba : String → Bool) (devices : List AmlConfig) (config : AppConfig) : Prop where
  count : config.count = devices.length
  device : ∀ i : Fin configMaxAmls, i.val < config.count → devices[i.val]? = some (config.devices i)
  connects : ∀ i : Fin configMaxAmls, i.val < config.count → ∀ connection (world : World),
    (∀ outcome ∈ world.connects.head?, outcome.Allowed str2ba (config.devices i)) →
      (amlConnect connection (config.devices i) world).1 ≠ .error .generic
  named : ∀ i : Fin configMaxAmls, i.val < config.count →
    configSelect (some config) (some (config.devices i).name) = some i
  absent : ∀ name, name ≠ "" →
    (∀ i : Fin configMaxAmls, i.val < config.count → (config.devices i).name ≠ name) →
      configSelect (some config) (some name) = none
  first : configSelect (some config) none = some 0 ∧ configSelect (some config) (some "") = some 0

theorem entry_of_mem {items : List JsonValue} {devices : List AmlConfig}
    (h : List.Forall₂ Entry items devices) : ∀ device ∈ devices, ∃ entry, Entry entry device := by
  induction h with
  | nil => simp
  | cons hentry _ ih => exact List.forall_mem_cons.mpr ⟨⟨_, hentry⟩, ih⟩

theorem Document.loaded {str2ba : String → Bool} (hstr2ba : ∀ mac, MacForm mac → str2ba mac = true)
    {root : JsonValue} {devices : List AmlConfig} (h : Document root devices) (config : AppConfig) :
    Loaded str2ba devices { config.filled 0 devices with count := devices.length } := by
  obtain ⟨items, -, hentries⟩ := h.entries
  have hdevice : ∀ i : Fin configMaxAmls, i.val < devices.length →
      devices[i.val]? = some ((config.filled 0 devices).devices i) := by
    intro i hi
    simp [AppConfig.filled, hi]
  have hentry : ∀ i : Fin configMaxAmls, i.val < devices.length →
      ∃ entry, Entry entry ((config.filled 0 devices).devices i) := by
    intro i hi
    exact entry_of_mem hentries _ (List.mem_of_getElem? (hdevice i hi))
  have hcount : devices.length ≠ 0 := Nat.ne_of_gt h.size.1
  constructor
  · rfl
  · exact hdevice
  · intro i hi connection world hworld
    obtain ⟨entry, hentry⟩ := hentry i hi
    exact amlConnect_entry hstr2ba hentry connection hworld
  · intro i hi
    obtain ⟨entry, hentry⟩ := hentry i hi
    refine configSelect_name hi ?_ ?_
    · intro hempty
      have hlength := hentry.name.nonempty
      dsimp only at hempty
      rw [hempty] at hlength
      cases hlength
    · intro j hj heq
      have hnames : (devices.map AmlConfig.name)[i.val]? = (devices.map AmlConfig.name)[j.val]? := by
        rw [List.getElem?_map, List.getElem?_map, hdevice i hi, hdevice j (Nat.lt_trans hj hi)]
        exact congrArg some heq.symm
      have hi' : i.val < (devices.map AmlConfig.name).length := by simpa using hi
      exact absurd ((List.getElem?_inj hi' h.distinct).mp hnames) (Nat.ne_of_gt hj)
  · exact fun name hname habsent => configSelect_absent hname habsent
  · exact configSelect_first hcount

/-- **The configuration**: it is loaded exactly when the document is valid. Then each device
passes the checks of `aml_connect`, and is what its name, and no other, gives; after a failure,
no name gives a device. -/
theorem configLoad_devices {str2ba : String → Bool} (hstr2ba : ∀ mac, MacForm mac → str2ba mac = true)
    (fromFile : String → JsonValue) (path : String) (config : AppConfig) :
    ((configLoad fromFile (some path) (some config)).1 = .ok () ↔
        ∃ devices, Document (fromFile path) devices) ∧
      (∀ devices, Document (fromFile path) devices → ∃ loaded,
        configLoad fromFile (some path) (some config) = (.ok (), some loaded) ∧
          Loaded str2ba devices loaded) ∧
      ∀ message config', configLoad fromFile (some path) (some config) = (.error message, config') →
        ∃ failed, config' = some failed ∧ failed.count = 0 ∧
          ∀ name, configSelect (some failed) name = none := by
  rcases hrun : loadRoot path (fromFile path) config with ⟨message | ⟨⟩, last⟩
  · have hload : configLoad fromFile (some path) (some config) = (.error message, some last) := by
      rw [configLoad, hrun]
    have hinvalid : ∀ devices, ¬ Document (fromFile path) devices := by
      intro devices hdocument
      cases hrun.symm.trans (loadRoot_ok.mpr ⟨devices, hdocument, rfl⟩)
    rw [hload]
    refine ⟨⟨fun h => (by cases h), fun ⟨devices, h⟩ => absurd h (hinvalid devices)⟩, ?_, ?_⟩
    · intro devices hdocument
      exact absurd hdocument (hinvalid devices)
    · intro _ _ heq
      cases heq
      have hcount := loadRoot_failed hrun
      exact ⟨last, rfl, hcount, configSelect_empty hcount⟩
  · have hload : configLoad fromFile (some path) (some config) = (.ok (), some last) := by
      rw [configLoad, hrun]
    obtain ⟨devices, hdocument, -⟩ := loadRoot_ok.mp hrun
    rw [hload]
    refine ⟨⟨fun _ => ⟨devices, hdocument⟩, fun _ => rfl⟩, ?_, fun _ _ h => (by cases h)⟩
    intro devices' hdocument'
    obtain ⟨-, rfl⟩ := Prod.mk.inj (hrun.symm.trans (loadRoot_ok.mpr ⟨devices', hdocument', rfl⟩))
    exact ⟨_, rfl, hdocument'.loaded hstr2ba config⟩

/-- The device of `config/aml.example.json`. -/
def exempleDevice : AmlConfig where
  name := "Alias for device"
  amlMac := "AA:BB:CC:DD:EE:FF"
  amlChn := 1
  bltMac := "FF:EE:DD:CC:BB:AA"

/-- `config/aml.example.json` -/
def exemple : JsonValue :=
  .arr [.obj [("name", .str "Alias for device"), ("AML_MAC", .str "AA:BB:CC:DD:EE:FF"),
    ("AML_CHN", .int 1), ("BLT_MAC", .str "FF:EE:DD:CC:BB:AA")]]

theorem exemple_document : Document exemple [exempleDevice] where
  entries := by
    refine ⟨_, rfl, .cons ?_ .nil⟩
    exact (@parseDevice_ok _ amlScripted _).mp (Prod.ext (by decide +kernel) (by decide +kernel))
  size := by decide
  distinct := by decide

theorem configLoad_exemple : ∃ loaded,
    configLoad (fun _ => exemple) (some "config/aml.example.json") (some ⟨fun _ => amlScripted, 7⟩) =
      (.ok (), some loaded) ∧ Loaded validMac [exempleDevice] loaded :=
  (configLoad_devices (fun _ h => (validMac_iff (HexPairs.no_nul h)).mpr h) (fun _ => exemple)
    "config/aml.example.json" ⟨fun _ => amlScripted, 7⟩).2.1 _ exemple_document

end AmlService
