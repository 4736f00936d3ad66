import Mathlib.Algebra.Group.Int.Defs
import Mathlib.Algebra.Group.Nat.Defs
import Mathlib.Data.List.TakeWhile

/-!
# AmlService.Lib.Text

Reading and printing numbers as C's standard library does: `sscanf` for formats made
of decimal conversions, literal characters and blanks, `strtol`, and zero-padded
decimals; texts that end at their first null character.
-/

namespace Text

/-- A text as C sees it: up to its first null character. -/
def cString (s : String) : String := String.ofList (s.toList.takeWhile (· ≠ '\x00'))

/-- The blanks of `isspace`. -/
def isSpace (c : Char) : Bool :=
  c == ' ' || c == '\t' || c == '\n' || c == '\x0b' || c == '\x0c' || c == '\r'

def skipSpaces (s : List Char) : List Char := s.dropWhile isSpace

/-- The value of decimal digits. -/
def digitsValue (digits : List Char) : Nat :=
  digits.foldl (fun n c => 10 * n + (c.toNat - '0'.toNat)) 0

/-- An optional sign: whether it is a minus, how many characters it takes. -/
def sign : List Char → Bool × Nat
  | '-' :: _ => (true, 1)
  | '+' :: _ => (false, 1)
  | _ => (false, 0)

/-- An optional sign and decimal digits, over at most `width` characters: the sign, the
value of the digits and what follows; `none` without any digit. -/
def numeral (width : Nat) (s : List Char) : Option (Bool × Nat × List Char) :=
  let (negative, skip) := sign (s.take width)
  let digits := ((s.take width).drop skip).takeWhile Char.isDigit
  if digits.isEmpty then none
  else some (negative, digitsValue digits, s.drop (skip + digits.length))

/-! ### sscanf -/

/-- A piece of a format: `%Nd`, `%Nu` or `%u`, `%c`, a character, or a blank. -/
inductive Directive
  | int (width : Nat)
  | unsigned (width : Option Nat)
  | char
  | lit (c : Char)
  | blank
  deriving Repr, DecidableEq

/-- The largest `unsigned long`. -/
abbrev ulongMax : Nat := 0xFFFFFFFFFFFFFFFF

/-- What `%u` stores: `strtoul`, then its low 32 bits. -/
def storeUnsigned (negative : Bool) (value : Nat) : Nat :=
  let long :=
    if ulongMax < value then ulongMax
    else if negative then (ulongMax + 1 - value) % (ulongMax + 1)
    else value
  long % 0x100000000

/-- `sscanf`: the values stored, in order, until a piece of the format does not match.
Its return value is their number. -/
def sscanf : List Directive → List Char → List Int
  | [], _ => []
  | .blank :: format, s => sscanf format (skipSpaces s)
  | .lit c :: format, s =>
    match s with
    | [] => []
    | d :: s => if c = d then sscanf format s else []
  | .char :: format, s =>
    match s with
    | [] => []
    | d :: s => d.toNat :: sscanf format s
  | .int width :: format, s =>
    match numeral width (skipSpaces s) with
    | none => []
    | some (negative, value, s) => (if negative then -value else value : Int) :: sscanf format s
  | .unsigned width :: format, s =>
    match numeral (width.getD s.length) (skipSpaces s) with
    | none => []
    | some (negative, value, s) => (storeUnsigned negative value : Int) :: sscanf format s

/-! ### strtol and printing -/

abbrev longMax : Int := 0x7FFFFFFFFFFFFFFF

/-- `strtol` in base 10: 0 without a number, and the nearest bound out of range. -/
def strtol (s : List Char) : Int :=
  match numeral s.length (skipSpaces s) with
  | none => 0
  | some (true, value, _) => max (-longMax - 1) (-value)
  | some (false, value, _) => min longMax value

/-- `strtoll` in base 10: the value, brought back to the nearest bound, whether it was out
of range, and what follows the number; `none` without a number. -/
def strtoll (s : List Char) : Option (Int × Bool × List Char) :=
  match numeral s.length (skipSpaces s) with
  | none => none
  | some (negative, value, rest) =>
    let n : Int := if negative then -value else value
    some (max (-longMax - 1) (min longMax n), decide (n < -longMax - 1 ∨ longMax < n), rest)

/-- A decimal with at least `width` digits, as `%0Nd` prints a number that is not
negative. -/
def padded (width n : Nat) : String :=
  let digits := (Nat.repr n).toList
  String.ofList (List.replicate (width - digits.length) '0' ++ digits)

/-! ### Conversion to `double` -/

/-- The integers below this one are all exact as a `double`. -/
abbrev doubleExact : Nat := 0x20000000000000

/-- A magnitude rounded to 53 significant bits, ties to even. -/
def roundDouble (m : Nat) : Nat :=
  if m < doubleExact then m
  else
    let exponent := m.log2 - 52
    let kept := m >>> exponent
    let lost := m - kept <<< exponent
    let half := 1 <<< (exponent - 1)
    (if half < lost ∨ lost = half ∧ kept % 2 = 1 then kept + 1 else kept) <<< exponent

/-- `(double)n`, for an integer; the result is one too. -/
def toDouble (n : Int) : Int := n.sign * roundDouble n.natAbs

/-- Whether the double nearest to `digits * 10 ^ exponent` is zero: it is at most half the smallest one,
`2 ^ -1075`; a number that is far out of range is not computed. -/
def vanishes (digits : List Char) (exponent : Int) : Bool :=
  let num := digitsValue digits
  num == 0 || decide (digits.length + exponent < -400) ||
    decide (exponent < 0) && decide (num * 2 ^ 1075 ≤ 10 ^ (-exponent).toNat)

/-- A decimal, with a fraction and an exponent or without, whose double is zero. -/
def isZero (text : List Char) : Bool :=
  let s := text.drop (sign text).2
  let mantissa := s.takeWhile fun c => c.toLower ≠ 'e'
  let whole := mantissa.takeWhile (· ≠ '.')
  let fraction := mantissa.drop (whole.length + 1)
  let (negative, signs) := sign (s.drop (mantissa.length + 1))
  let exponent : Int := digitsValue (s.drop (mantissa.length + 1 + signs))
  vanishes (whole ++ fraction) ((if negative then -exponent else exponent) - fraction.length)

example : ["0.0", "-0e5", "1e-400", "24.7e-326", "0.5", "-1.0E3", "1e-320", "25e-325"].map (isZero ·.toList) =
    [true, true, true, true, false, false, false, false] := by decide +kernel

/-! ### Decimal integers -/

/-- The text of a decimal integer: blanks, an optional sign, digits. -/
inductive Decimal : List Char → Int → Prop
  | plain {blanks digits} : (∀ c ∈ blanks, isSpace c = true) → digits ≠ [] →
      (∀ c ∈ digits, c.isDigit = true) → Decimal (blanks ++ digits) (digitsValue digits)
  | plus {blanks digits} : (∀ c ∈ blanks, isSpace c = true) → digits ≠ [] →
      (∀ c ∈ digits, c.isDigit = true) → Decimal (blanks ++ '+' :: digits) (digitsValue digits)
  | minus {blanks digits} : (∀ c ∈ blanks, isSpace c = true) → digits ≠ [] →
      (∀ c ∈ digits, c.isDigit = true) → Decimal (blanks ++ '-' :: digits) (-digitsValue digits)

theorem sign_cases (s : List Char) :
    (∃ rest, s = '-' :: rest ∧ sign s = (true, 1)) ∨
      (∃ rest, s = '+' :: rest ∧ sign s = (false, 1)) ∨ sign s = (false, 0) := by
  unfold sign
  split
  · exact .inl ⟨_, rfl, rfl⟩
  · exact .inr (.inl ⟨_, rfl, rfl⟩)
  · exact .inr (.inr rfl)

theorem Decimal.blanks {blanks text : List Char} {n : Int} (hblanks : ∀ c ∈ blanks, isSpace c = true)
    (h : Decimal text n) : Decimal (blanks ++ text) n := by
  have hall : ∀ {more : List Char}, (∀ c ∈ more, isSpace c = true) → ∀ c ∈ blanks ++ more, isSpace c = true :=
    fun hmore c hc => (List.mem_append.mp hc).elim (hblanks c) (hmore c)
  cases h with
  | plain hmore hne hdigits => exact List.append_assoc _ _ _ ▸ .plain (hall hmore) hne hdigits
  | plus hmore hne hdigits => exact List.append_assoc _ _ _ ▸ .plus (hall hmore) hne hdigits
  | minus hmore hne hdigits => exact List.append_assoc _ _ _ ▸ .minus (hall hmore) hne hdigits

/-- The text of a number of at most `width` characters, sign included, after the blanks. -/
def Field (width : Nat) (text : List Char) (n : Int) : Prop :=
  Decimal text n ∧ (skipSpaces text).length ≤ width

theorem skipSpaces_blanks {blanks s : List Char} (h : ∀ c ∈ blanks, isSpace c = true) :
    skipSpaces (blanks ++ s) = skipSpaces s := by
  rw [skipSpaces, List.dropWhile_append_of_pos h]
  rfl

theorem skipSpaces_split (s : List Char) :
    ∃ blanks, s = blanks ++ skipSpaces s ∧ ∀ c ∈ blanks, isSpace c = true :=
  ⟨s.takeWhile isSpace, List.takeWhile_append_dropWhile.symm, fun _ hc => List.mem_takeWhile_imp hc⟩

/-- A numeral is cut off the text. -/
theorem numeral_inv {width : Nat} {s rest : List Char} {negative : Bool} {value : Nat}
    (h : numeral width s = some (negative, value, rest)) :
    ∃ text, s = text ++ rest ∧ text.length ≤ width ∧ Decimal text (if negative then -value else value) := by
  rw [numeral] at h
  dsimp only at h
  split at h
  · cases h
  next hempty =>
  obtain ⟨tail, hsplit⟩ : ∃ tail, s = s.take width ++ tail := ⟨s.drop width, (List.take_append_drop width s).symm⟩
  have hlen : (s.take width).length ≤ width := List.length_take_le width s
  generalize s.take width = w at h hempty hsplit hlen
  have hdigits : (w.drop (sign w).2).takeWhile Char.isDigit ≠ [] := by simpa using hempty
  clear hempty
  have hall : ∀ c ∈ (w.drop (sign w).2).takeWhile Char.isDigit, c.isDigit = true :=
    fun c hc => List.mem_takeWhile_imp hc
  obtain ⟨more, hmore⟩ : ∃ more, (w.drop (sign w).2).takeWhile Char.isDigit ++ more = w.drop (sign w).2 :=
    ⟨(w.drop (sign w).2).dropWhile Char.isDigit, List.takeWhile_append_dropWhile⟩
  generalize (w.drop (sign w).2).takeWhile Char.isDigit = digits at h hdigits hall hmore
  simp only [Option.some.injEq, Prod.mk.injEq] at h
  obtain ⟨hneg, rfl, rfl⟩ := h
  subst hsplit
  have hnone : ∀ c ∈ ([] : List Char), isSpace c = true := by simp
  rcases sign_cases w with ⟨r, rfl, hsign⟩ | ⟨r, rfl, hsign⟩ | hsign <;> rw [hsign] at hmore hneg ⊢ <;> subst hneg
  · obtain rfl : digits ++ more = r := hmore
    refine ⟨'-' :: digits, by simp [Nat.add_comm], ?_, .minus hnone hdigits hall⟩
    simp only [List.length_cons, List.length_append] at hlen ⊢
    omega
  · obtain rfl : digits ++ more = r := hmore
    refine ⟨'+' :: digits, by simp [Nat.add_comm], ?_, .plus hnone hdigits hall⟩
    simp only [List.length_cons, List.length_append] at hlen ⊢
    omega
  · obtain rfl : digits ++ more = w := hmore
    refine ⟨digits, by simp, ?_, .plain hnone hdigits hall⟩
    rw [List.length_append] at hlen
    omega

/-- A numeral after blanks. -/
theorem field_of_numeral {width : Nat} {s rest : List Char} {negative : Bool} {value : Nat}
    (h : numeral width (skipSpaces s) = some (negative, value, rest)) :
    ∃ text, s = text ++ rest ∧ Field width text (if negative then -value else value) := by
  obtain ⟨blanks, hsplit, hblanks⟩ := skipSpaces_split s
  obtain ⟨text, htext, hlen, hdecimal⟩ := numeral_inv h
  refine ⟨blanks ++ text, by rw [List.append_assoc, ← htext]; exact hsplit, hdecimal.blanks hblanks, ?_⟩
  rw [skipSpaces_blanks hblanks]
  exact ((List.dropWhile_sublist _).length_le).trans hlen

/-- A numeral that is all of what follows the blanks. -/
theorem decimal_of_numeral {s : List Char} {negative : Bool} {value : Nat}
    (h : numeral s.length (skipSpaces s) = some (negative, value, [])) :
    Decimal s (if negative then -value else value) := by
  obtain ⟨text, htext, hfield⟩ := field_of_numeral h
  rw [htext, List.append_nil]
  exact hfield.1

/-- **A number read to the end**, and in range: `strtol` gives the same. -/
theorem strtoll_exact {s : List Char} {n : Int} (h : strtoll s = some (n, false, [])) :
    Decimal s n ∧ strtol s = n := by
  unfold strtoll at h
  split at h
  · cases h
  · next negative value rest hnumeral =>
    simp only [Option.some.injEq, Prod.mk.injEq] at h
    obtain ⟨hn, hrange, rfl⟩ := h
    have hdecimal := decimal_of_numeral hnumeral
    simp only [decide_eq_false_iff_not, not_or] at hrange
    refine ⟨?_, ?_⟩
    · rwa [show n = if negative then -(value : Int) else value by omega]
    · rw [strtol, hnumeral]
      cases negative <;> simp only [Bool.false_eq_true, if_false, if_true] at hn hrange <;> dsimp only <;>
        omega

/-! ### Reading with a format -/

theorem sscanf_int_inv {width : Nat} {format : List Directive} {s : List Char} {n : Int} {values : List Int}
    (h : sscanf (.int width :: format) s = n :: values) :
    ∃ text rest, s = text ++ rest ∧ Field width text n ∧ sscanf format rest = values := by
  rw [sscanf] at h
  split at h
  · cases h
  next negative value rest hnumeral =>
  obtain ⟨rfl, hrest⟩ := List.cons.inj h
  obtain ⟨text, htext, hfield⟩ := field_of_numeral hnumeral
  exact ⟨text, rest, htext, hfield, hrest⟩

theorem sscanf_unsigned_inv {width : Option Nat} {format : List Directive} {s : List Char} {n : Int}
    {values : List Int} (h : sscanf (.unsigned width :: format) s = n :: values) :
    ∃ text rest negative value, s = text ++ rest ∧ Decimal text (if negative then -(value : Int) else value) ∧
      n = storeUnsigned negative value ∧ sscanf format rest = values := by
  rw [sscanf] at h
  split at h
  · cases h
  next negative value rest hnumeral =>
  obtain ⟨rfl, hrest⟩ := List.cons.inj h
  obtain ⟨text, htext, hfield⟩ := field_of_numeral hnumeral
  exact ⟨text, rest, negative, value, htext, hfield.1, rfl, hrest⟩

theorem sscanf_lit_inv {c : Char} {format : List Directive} {s : List Char} {n : Int} {values : List Int}
    (h : sscanf (.lit c :: format) s = n :: values) : ∃ rest, s = c :: rest ∧ sscanf format rest = n :: values := by
  cases s with
  | nil => cases h
  | cons d s =>
    rw [sscanf] at h
    split at h
    · next hc => exact ⟨s, by rw [hc], h⟩
    · cases h

/-- No character is left. -/
theorem sscanf_char_nil {s : List Char} (h : sscanf [.char] s = []) : s = [] := by
  cases s with
  | nil => rfl
  | cons c s => cases h

theorem takeWhile_digits {width : Nat} {digits rest : List Char} (hall : ∀ c ∈ digits, c.isDigit = true)
    (hlen : digits.length ≤ width) (hstop : digits.length = width ∨ ∀ c ∈ rest.head?, c.isDigit = false) :
    ((digits ++ rest).take width).takeWhile Char.isDigit = digits := by
  have hafter : (rest.take (width - digits.length)).takeWhile Char.isDigit = [] := by
    rcases hstop with hfull | hother
    · rw [hfull, Nat.sub_self, List.take_zero]
      rfl
    · cases rest with
      | nil => simp
      | cons c rest =>
        cases width - digits.length with
        | zero => rfl
        | succ k => simp [hother c rfl]
  rw [List.take_append, List.take_of_length_le hlen, List.takeWhile_append_of_pos hall, hafter, List.append_nil]

/-- Digits that fill the width, or that something else follows. -/
theorem numeral_digits {width : Nat} {digits rest : List Char} (hne : digits ≠ [])
    (hall : ∀ c ∈ digits, c.isDigit = true) (hlen : digits.length ≤ width)
    (hstop : digits.length = width ∨ ∀ c ∈ rest.head?, c.isDigit = false) :
    numeral width (digits ++ rest) = some (false, digitsValue digits, rest) := by
  have htake := takeWhile_digits hall hlen hstop
  obtain ⟨d, more, rfl⟩ := List.exists_cons_of_ne_nil hne
  have hd := hall d List.mem_cons_self
  have hsign : sign ((d :: more ++ rest).take width) = (false, 0) := by
    cases width with
    | zero => rfl
    | succ width =>
      rcases sign_cases ((d :: more ++ rest).take (width + 1)) with ⟨r, hr, -⟩ | ⟨r, hr, -⟩ | hnone
      · obtain ⟨rfl, -⟩ := List.cons.inj hr
        cases hd
      · obtain ⟨rfl, -⟩ := List.cons.inj hr
        cases hd
      · exact hnone
  rw [numeral, hsign]
  simp only [List.drop_zero, htake, List.isEmpty_cons, Bool.false_eq_true, if_false, Nat.zero_add]
  rw [List.drop_left]

/-- The same after a sign. -/
theorem numeral_sign {width : Nat} {digits rest : List Char} (hne : digits ≠ [])
    (hall : ∀ c ∈ digits, c.isDigit = true) (hlen : digits.length ≤ width)
    (hstop : ∀ c ∈ rest.head?, c.isDigit = false) :
    numeral (width + 1) ('-' :: (digits ++ rest)) = some (true, digitsValue digits, rest) ∧
      numeral (width + 1) ('+' :: (digits ++ rest)) = some (false, digitsValue digits, rest) := by
  have htake := takeWhile_digits hall hlen (.inr hstop)
  simp [numeral, sign, htake, hne, Nat.add_comm 1]

theorem skipSpaces_digits {digits rest : List Char} (hne : digits ≠ [])
    (hall : ∀ c ∈ digits, c.isDigit = true) : skipSpaces (digits ++ rest) = digits ++ rest := by
  obtain ⟨d, more, rfl⟩ := List.exists_cons_of_ne_nil hne
  have hd := hall d List.mem_cons_self
  have hspace : isSpace d = false := by
    by_contra hspace
    simp only [isSpace, Bool.not_eq_false, Bool.or_eq_true, beq_iff_eq] at hspace
    rcases hspace with ((((rfl | rfl) | rfl) | rfl) | rfl) | rfl <;> cases hd
  rw [List.cons_append, skipSpaces, List.dropWhile_cons_of_neg (by simp [hspace])]

/-- Digits are read by `%Nd` as far as they go. -/
theorem sscanf_int_digits {width : Nat} {format : List Directive} {digits rest : List Char} (hne : digits ≠ [])
    (hall : ∀ c ∈ digits, c.isDigit = true) (hlen : digits.length ≤ width)
    (hstop : digits.length = width ∨ ∀ c ∈ rest.head?, c.isDigit = false) :
    sscanf (.int width :: format) (digits ++ rest) = (digitsValue digits : Int) :: sscanf format rest := by
  rw [sscanf, skipSpaces_digits hne hall, numeral_digits hne hall hlen hstop]
  rfl

theorem skipSpaces_sign (s : List Char) : skipSpaces ('-' :: s) = '-' :: s ∧ skipSpaces ('+' :: s) = '+' :: s :=
  ⟨rfl, rfl⟩

/-- **A decimal integer is read whole**, if no digit follows it. -/
theorem Decimal.numeral {text rest : List Char} {n : Int} (h : Decimal text n)
    (hstop : ∀ c ∈ rest.head?, c.isDigit = false) :
    ∃ negative value, Text.numeral (text ++ rest).length (skipSpaces (text ++ rest)) = some (negative, value, rest) ∧
      n = if negative then -(value : Int) else value := by
  cases h with
  | @plain blanks digits hblanks hne hall =>
    refine ⟨false, digitsValue digits, ?_, rfl⟩
    rw [List.append_assoc, skipSpaces_blanks hblanks, skipSpaces_digits hne hall]
    exact numeral_digits hne hall (by simp; omega) (.inr hstop)
  | @plus blanks digits hblanks hne hall =>
    refine ⟨false, digitsValue digits, ?_, rfl⟩
    rw [List.append_assoc, skipSpaces_blanks hblanks, List.cons_append, (skipSpaces_sign _).2]
    have hread := @numeral_sign (blanks.length + (digits ++ rest).length) digits rest hne hall (by simp; omega) hstop
    simpa [Nat.add_assoc] using hread.2
  | @minus blanks digits hblanks hne hall =>
    refine ⟨true, digitsValue digits, ?_, rfl⟩
    rw [List.append_assoc, skipSpaces_blanks hblanks, List.cons_append, (skipSpaces_sign _).1]
    have hread := @numeral_sign (blanks.length + (digits ++ rest).length) digits rest hne hall (by simp; omega) hstop
    simpa [Nat.add_assoc] using hread.1

/-- A text begins with one decimal integer. -/
theorem Decimal.unique {text text' rest rest' : List Char} {n n' : Int} (h : Decimal text n) (h' : Decimal text' n')
    (hsame : text ++ rest = text' ++ rest') (hstop : ∀ c ∈ rest.head?, c.isDigit = false)
    (hstop' : ∀ c ∈ rest'.head?, c.isDigit = false) : n = n' ∧ rest = rest' := by
  obtain ⟨negative, value, hread, rfl⟩ := h.numeral hstop
  obtain ⟨negative', value', hread', rfl⟩ := h'.numeral hstop'
  rw [hsame, hread'] at hread
  simp only [Option.some.injEq, Prod.mk.injEq] at hread
  obtain ⟨rfl, rfl, rfl⟩ := hread
  exact ⟨rfl, rfl⟩

/-- What `%u` stores of an integer. -/
def storedUnsigned (n : Int) : Nat := storeUnsigned (decide (n < 0)) n.natAbs

theorem storeUnsigned_eq (negative : Bool) (value : Nat) :
    storeUnsigned negative value = storedUnsigned (if negative then -(value : Int) else value) := by
  cases negative with
  | false =>
    have hpos : ¬ (value : Int) < 0 := by omega
    simp [storedUnsigned, hpos]
  | true =>
    cases value with
    | zero => rfl
    | succ value =>
      have hneg : -((value + 1 : Nat) : Int) < 0 := by omega
      simp only [storedUnsigned, if_true, Int.natAbs_neg, Int.natAbs_natCast, hneg, decide_true]

/-- **A small value is stored** of what it is congruent to, if `strtoul` has not brought it back
to its largest value. -/
theorem storedUnsigned_le {n : Int} :
    storedUnsigned n ≤ 255 ↔ n.natAbs < 2 ^ 64 ∧ n % 2 ^ 32 ≤ 255 := by
  unfold storedUnsigned storeUnsigned
  simp only [ulongMax]
  by_cases hlong : 0xFFFFFFFFFFFFFFFF < n.natAbs
  · rw [if_pos hlong]
    omega
  by_cases hneg : n < 0
  · simp only [if_neg hlong, hneg, decide_true, if_true]
    omega
  · simp only [if_neg hlong, hneg, decide_false, Bool.false_eq_true, if_false]
    omega

/-- In range, it is stored as it is. -/
theorem storedUnsigned_octet {n : Int} (h : 0 ≤ n ∧ n ≤ 255) : (storedUnsigned n : Int) = n := by
  have hneg : ¬ n < 0 := by omega
  have hlong : ¬ ulongMax < n.natAbs := by
    show ¬ 0xFFFFFFFFFFFFFFFF < n.natAbs
    omega
  simp only [storedUnsigned, storeUnsigned, if_neg hlong, hneg, decide_false, Bool.false_eq_true, if_false]
  omega

theorem sscanf_unsigned_decimal {format : List Directive} {text rest : List Char} {n : Int} (h : Decimal text n)
    (hstop : ∀ c ∈ rest.head?, c.isDigit = false) :
    sscanf (.unsigned none :: format) (text ++ rest) = (storedUnsigned n : Int) :: sscanf format rest := by
  obtain ⟨negative, value, hread, rfl⟩ := h.numeral hstop
  rw [sscanf, Option.getD_none, hread, ← storeUnsigned_eq]

@[simp] theorem sscanf_lit_self (c : Char) (format : List Directive) (s : List Char) :
    sscanf (.lit c :: format) (c :: s) = sscanf format s := by
  simp [sscanf]

@[simp] theorem sscanf_char_end (format : List Directive) : sscanf (.char :: format) [] = [] := rfl

@[simp] theorem sscanf_lit_nil (c : Char) (format : List Directive) : sscanf (.lit c :: format) [] = [] := rfl

theorem sscanf_lit_ne {c d : Char} (h : c ≠ d) (format : List Directive) (s : List Char) :
    sscanf (.lit c :: format) (d :: s) = [] := by
  simp [sscanf, h]

/-! ### Comparing through `double` -/

theorem roundDouble_of_lt {m : Nat} (h : m < doubleExact) : roundDouble m = m := if_pos h

/-- What is not exact stays above what is. -/
theorem le_roundDouble {m : Nat} (h : doubleExact ≤ m) : doubleExact ≤ roundDouble m := by
  have hne : m ≠ 0 := by
    rintro rfl
    exact absurd h (by decide)
  have hlog : 53 ≤ m.log2 := (Nat.le_log2 hne).mpr h
  obtain ⟨e, he⟩ : ∃ e, m.log2 = e + 53 := ⟨m.log2 - 53, by omega⟩
  -- 53 bits are kept
  have hkept : 0x10000000000000 ≤ m >>> (e + 1) := by
    rw [Nat.shiftRight_eq_div_pow, Nat.le_div_iff_mul_le (Nat.two_pow_pos _)]
    have hpow : 2 ^ (e + 53) ≤ m := he ▸ Nat.log2_self_le hne
    rw [Nat.pow_add] at hpow ⊢
    omega
  have hshift : ∀ {k}, 0x10000000000000 ≤ k → doubleExact ≤ k <<< (e + 1) := by
    intro k hk
    rw [Nat.shiftLeft_eq, Nat.pow_succ]
    have hpos := Nat.two_pow_pos e
    have hmul : k * 1 ≤ k * 2 ^ e := Nat.mul_le_mul_left k hpos
    show 0x20000000000000 ≤ _
    rw [← Nat.mul_assoc]
    omega
  have hexp : m.log2 - 52 = e + 1 := by omega
  rw [roundDouble, if_neg (Nat.not_lt.mpr h), hexp]
  dsimp only
  split
  · exact hshift (by omega)
  · exact hshift hkept

/-- An integer and its conversion are equal, or both out of the range of what is exact. -/
theorem toDouble_cases (n : Int) :
    toDouble n = n ∨ (doubleExact ≤ n ∧ doubleExact ≤ toDouble n) ∨
      (n ≤ -doubleExact ∧ toDouble n ≤ -doubleExact) := by
  by_cases hexact : n.natAbs < doubleExact
  · left
    rw [toDouble, roundDouble_of_lt hexact]
    exact Int.sign_mul_natAbs n
  · right
    have hround := le_roundDouble (Nat.not_lt.mp hexact)
    have hne : n ≠ 0 := by
      rintro rfl
      exact hexact (by decide)
    rw [toDouble]
    rcases Int.lt_or_gt_of_ne hne with hneg | hpos
    · rw [Int.sign_eq_neg_one_of_neg hneg]
      right
      omega
    · rw [Int.sign_eq_one_of_pos hpos]
      left
      omega

example : sscanf [.int 2, .lit ':', .int 2, .char] "07:30".toList = [7, 30] := by decide

end Text
