import AmlService.Lib.Json
import Mathlib.Tactic.SplitIfs

/-!
# AmlService.Lib.PyJson

Python's `json.dumps`, as it is called without options: one line of ASCII, with a blank after
each comma and each colon, the characters that are not ASCII as `\u` escapes.
-/

namespace PyJson

/-- A digit, in lower case. -/
def hexDigit (n : Nat) : Char :=
  if n < 10 then Char.ofNat ('0'.toNat + n) else Char.ofNat ('a'.toNat + (n - 10))

/-- `\uXXXX` -/
def escapeUnit (n : Nat) : List Char :=
  ['\\', 'u', hexDigit (n / 4096 % 16), hexDigit (n / 256 % 16), hexDigit (n / 16 % 16), hexDigit (n % 16)]

/-- A character of a text. -/
def escapeChar (c : Char) : List Char :=
  if c = '"' then ['\\', '"']
  else if c = '\\' then ['\\', '\\']
  else if c = '\n' then ['\\', 'n']
  else if c = '\r' then ['\\', 'r']
  else if c = '\t' then ['\\', 't']
  else if c = '\x08' then ['\\', 'b']
  else if c = '\x0c' then ['\\', 'f']
  else if ' ' ≤ c ∧ c ≤ '~' then [c]
  else if c.toNat < 0x10000 then escapeUnit c.toNat
  else
    -- beyond the first plane, two surrogates
    let n := c.toNat - 0x10000
    escapeUnit (0xD800 + n / 1024) ++ escapeUnit (0xDC00 + n % 1024)

/-- A text, between quotes. -/
def dumpText (s : String) : List Char := '"' :: (s.toList.flatMap escapeChar ++ ['"'])

/-- What is put between two items. -/
def separate (first : Bool) (item : List Char) : List Char := if first then item else [',', ' '] ++ item

mutual

/-- A value. -/
def dumpValue : JsonValue → List Char
  | .null => "null".toList
  | .bool b => (if b then "true" else "false").toList
  | .int n => (toString n).toList
  | .number text => text.toList
  | .str s => dumpText s
  | .arr items => '[' :: (dumpItems true items ++ [']'])
  | .obj fields => '\x7b' :: (dumpFields true fields ++ ['\x7d'])

/-- The items of a list. -/
def dumpItems (first : Bool) : List JsonValue → List Char
  | [] => []
  | item :: items => separate first (dumpValue item) ++ dumpItems false items

/-- The entries of a `dict`. -/
def dumpFields (first : Bool) : List (String × JsonValue) → List Char
  | [] => []
  | (key, value) :: fields =>
    separate first (dumpText key ++ [':', ' '] ++ dumpValue value) ++ dumpFields false fields

end

/-- `json.dumps(value)` -/
def dumps (value : JsonValue) : String := String.ofList (dumpValue value)

theorem dumps_obj (fields : List (String × JsonValue)) : dumps (.obj fields) ≠ "" := by
  simp [dumps, dumpValue]

example : dumps (.obj [("type", .str "request"), ("id", .int 1), ("args", .arr [.str "é\n", .bool true])]) =
    "\x7b\"type\": \"request\", \"id\": 1, \"args\": [\"\\u00e9\\n\", true]\x7d" := by decide +kernel

/-! ### Printable text -/

/-- Nothing but printable ASCII: no newline, and one byte for each character. -/
def Printable (cs : List Char) : Prop := ∀ c ∈ cs, ' ' ≤ c ∧ c ≤ '~'

instance (cs : List Char) : Decidable (Printable cs) := List.decidableBAll (fun c => ' ' ≤ c ∧ c ≤ '~') cs

@[simp] theorem printable_nil : Printable [] := by simp [Printable]

@[simp] theorem printable_cons {c : Char} {cs : List Char} :
    Printable (c :: cs) ↔ (' ' ≤ c ∧ c ≤ '~') ∧ Printable cs :=
  List.forall_mem_cons

@[simp] theorem printable_append {cs ds : List Char} : Printable (cs ++ ds) ↔ Printable cs ∧ Printable ds :=
  List.forall_mem_append

theorem escapeUnit_printable (n : Nat) : Printable (escapeUnit n) := by
  have hdigit : ∀ n < 16, ' ' ≤ hexDigit n ∧ hexDigit n ≤ '~' := by decide
  have hmod : ∀ n, ' ' ≤ hexDigit (n % 16) ∧ hexDigit (n % 16) ≤ '~' := fun n => hdigit _ (Nat.mod_lt n (by decide))
  simp only [escapeUnit, printable_cons, hmod, printable_nil, and_true]
  decide

theorem escapeChar_printable (c : Char) : Printable (escapeChar c) := by
  unfold escapeChar
  split_ifs with hquote hback hn hr ht hb hf hplain hunit
  all_goals first
    | exact escapeUnit_printable _
    | exact printable_cons.mpr ⟨hplain, printable_nil⟩
    | exact printable_append.mpr ⟨escapeUnit_printable _, escapeUnit_printable _⟩
    | decide

theorem dumpText_printable (s : String) : Printable (dumpText s) := by
  have hchars : Printable (s.toList.flatMap escapeChar) := by
    intro d hd
    obtain ⟨c, -, hmem⟩ := List.mem_flatMap.mp hd
    exact escapeChar_printable c d hmem
  simp only [dumpText, printable_cons, printable_append, hchars, printable_nil]
  decide

theorem natToString_printable (n : Nat) : Printable (toString n).toList := by
  intro c hc
  have hdigit : c.isDigit = true := by
    rw [Nat.toString_eq_repr, Nat.toList_repr] at hc
    exact Nat.isDigit_of_mem_toDigits (by decide) (by decide) hc
  simp only [Char.isDigit, Bool.and_eq_true, decide_eq_true_eq] at hdigit
  obtain ⟨hlow, hhigh⟩ := hdigit
  exact ⟨UInt32.le_trans (by decide : ' '.val ≤ 48) hlow, UInt32.le_trans hhigh (by decide : 57 ≤ '~'.val)⟩

end PyJson
