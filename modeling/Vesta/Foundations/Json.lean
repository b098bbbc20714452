import Mathlib.Algebra.Group.Nat.Defs
import Mathlib.Data.List.Basic

/-!
# Foundations — Json

JSON values and their text.  The text of a value is read back as that value, however it is laid out
(`read_text`), so a value is determined by its text (`text_injective`).  The compact text has no
line break (`newline_not_mem_text`), so a file of such texts, one a line, determines the list of its
values (`joined_injective`).
-/

namespace Vesta.Json

/-- A JSON value.  Numbers are integers. -/
inductive Value where
  | null
  | bool (b : Bool)
  | number (n : Int)
  | string (s : String)
  | array (items : List Value)
  | object (fields : List (String × Value))

/-! ### Text -/

/-- The last digits of a number in base 16, so many of them. -/
def hexDigits : Nat → Nat → List Char
  | 0, _ => []
  | width + 1, n => hexDigits width (n / 16) ++ [(n % 16).digitChar]

/-- A character of a string. -/
def escape (c : Char) : List Char :=
  if c = '"' then ['\\', '"']
  else if c = '\\' then ['\\', '\\']
  else if c = '\x08' then ['\\', 'b']
  else if c = '\t' then ['\\', 't']
  else if c = '\n' then ['\\', 'n']
  else if c = '\x0c' then ['\\', 'f']
  else if c = '\r' then ['\\', 'r']
  else if c.toNat < 32 then '\\' :: 'u' :: hexDigits 4 c.toNat
  else [c]

/-- A string, with its quotes. -/
def quoted (s : String) : List Char := '"' :: (s.toList.flatMap escape ++ ['"'])

/-- An integer in decimal digits. -/
def decimal : Int → List Char
  | .ofNat n => Nat.toDigits 10 n
  | .negSucc n => '-' :: Nat.toDigits 10 (n + 1)

/-- White space between the parts of a text. -/
def blank (c : Char) : Bool := c = ' ' || c = '\t' || c = '\n' || c = '\r'

/-- The white space of a layout. -/
structure Spacing where
  /-- before an item or a field, and before the bracket that closes them, at a depth -/
  gap : Nat → List Char
  /-- after a colon -/
  colon : List Char
  gap_blank : ∀ depth, ∀ c ∈ gap depth, blank c
  colon_blank : ∀ c ∈ colon, blank c

/-- No white space. -/
def Spacing.compact : Spacing where
  gap _ := []
  colon := []
  gap_blank := by simp
  colon_blank := by simp

/-- A line for each item and each field, indented by two spaces. -/
def Spacing.pretty : Spacing where
  gap depth := '\n' :: List.replicate (2 * depth) ' '
  colon := [' ']
  gap_blank depth c hc := by
    rcases List.mem_cons.mp hc with rfl | hc
    · rfl
    · rw [List.eq_of_mem_replicate hc]
      rfl
  colon_blank := by simp [blank]

section
variable (s : Spacing)

mutual

/-- The text of a value at a depth. -/
def Value.text (depth : Nat) : Value → List Char
  | .null => ['n', 'u', 'l', 'l']
  | .bool true => ['t', 'r', 'u', 'e']
  | .bool false => ['f', 'a', 'l', 's', 'e']
  | .number n => decimal n
  | .string s => quoted s
  | .array [] => ['[', ']']
  | .array (item :: items) =>
      '[' :: (s.gap (depth + 1) ++ item.text (depth + 1) ++ itemsText depth items)
  | .object [] => ['{', '}']
  | .object ((key, value) :: fields) =>
      '{' :: (s.gap (depth + 1) ++ quoted key ++ ':' :: (s.colon ++ value.text (depth + 1)) ++
        fieldsText depth fields)

/-- The items of an array after the first. -/
def itemsText (depth : Nat) : List Value → List Char
  | [] => s.gap depth ++ [']']
  | item :: items => ',' :: (s.gap (depth + 1) ++ item.text (depth + 1) ++ itemsText depth items)

/-- The fields of an object after the first. -/
def fieldsText (depth : Nat) : List (String × Value) → List Char
  | [] => s.gap depth ++ ['}']
  | (key, value) :: fields =>
      ',' :: (s.gap (depth + 1) ++ quoted key ++ ':' :: (s.colon ++ value.text (depth + 1)) ++
        fieldsText depth fields)

end

end

/-! ### Reading -/

def hexValue (c : Char) : Nat := if c.isDigit then c.toNat - 48 else c.toNat - 87

def ofHexDigits (cs : List Char) : Nat := cs.foldl (fun n c => 16 * n + hexValue c) 0

/-- Read a character of a string. -/
def unescape : List Char → Option (Char × List Char)
  | '\\' :: 'u' :: a :: b :: c :: d :: cs => some (.ofNat (ofHexDigits [a, b, c, d]), cs)
  | '\\' :: 'b' :: cs => some ('\x08', cs)
  | '\\' :: 't' :: cs => some ('\t', cs)
  | '\\' :: 'n' :: cs => some ('\n', cs)
  | '\\' :: 'f' :: cs => some ('\x0c', cs)
  | '\\' :: 'r' :: cs => some ('\r', cs)
  | '\\' :: c :: cs => some (c, cs)
  | '"' :: _ => none
  | c :: cs => some (c, cs)
  | [] => none

/-- Read the rest of a string, up to its closing quote. -/
def readBody : Nat → List Char → Option (List Char × List Char)
  | 0, _ => none
  | fuel + 1, cs =>
      match unescape cs with
      | some (c, cs) => (readBody fuel cs).map fun (body, cs) => (c :: body, cs)
      | none => some ([], cs.drop 1)

/-- Read a string. -/
def readQuoted (fuel : Nat) : List Char → Option (String × List Char)
  | '"' :: cs => (readBody fuel cs).map fun (body, cs) => (.ofList body, cs)
  | _ => none

/-- Read a number without its sign. -/
def readNat (cs : List Char) : Nat × List Char :=
  (Nat.ofDigitChars 10 (cs.takeWhile Char.isDigit) 0, cs.dropWhile Char.isDigit)

mutual

/-- Read a value. -/
def readValue : Nat → List Char → Option (Value × List Char)
  | 0, _ => none
  | fuel + 1, cs =>
      match cs.dropWhile blank with
      | 'n' :: cs => some (.null, cs.drop 3)
      | 't' :: cs => some (.bool true, cs.drop 3)
      | 'f' :: cs => some (.bool false, cs.drop 4)
      | '-' :: cs => some (.number (-(readNat cs).1), (readNat cs).2)
      | '[' :: ']' :: cs => some (.array [], cs)
      | '{' :: '}' :: cs => some (.object [], cs)
      | '[' :: cs => (readItems fuel (',' :: cs)).map fun (items, cs) => (.array items, cs)
      | '{' :: cs => (readFields fuel (',' :: cs)).map fun (fields, cs) => (.object fields, cs)
      | '"' :: cs => (readQuoted fuel ('"' :: cs)).map fun (s, cs) => (.string s, cs)
      | cs => some (.number (readNat cs).1, (readNat cs).2)

/-- Read the rest of an array. -/
def readItems : Nat → List Char → Option (List Value × List Char)
  | 0, _ => none
  | fuel + 1, cs =>
      match cs.dropWhile blank with
      | ',' :: cs => do
          let (item, cs) ← readValue fuel cs
          let (items, cs) ← readItems fuel cs
          return (item :: items, cs)
      | ']' :: cs => some ([], cs)
      | _ => none

/-- Read the rest of an object. -/
def readFields : Nat → List Char → Option (List (String × Value) × List Char)
  | 0, _ => none
  | fuel + 1, cs =>
      match cs.dropWhile blank with
      | ',' :: cs => do
          let (key, cs) ← readQuoted fuel (cs.dropWhile blank)
          let (value, cs) ← readValue fuel (cs.drop 1)
          let (fields, cs) ← readFields fuel cs
          return ((key, value) :: fields, cs)
      | '}' :: cs => some ([], cs)
      | _ => none

end

/-- Read a whole text. -/
def read (cs : List Char) : Option Value := (readValue (cs.length + 1) cs).map (·.1)

/-! ### Strings -/

theorem hexValue_digitChar : ∀ d < 16, hexValue d.digitChar = d := by decide

theorem ofHexDigits_hexDigits (width n : Nat) :
    ofHexDigits (hexDigits width n) = n % 16 ^ width := by
  induction width generalizing n with
  | zero => simp [hexDigits, ofHexDigits, Nat.mod_one]
  | succ width ih =>
      have hlast := hexValue_digitChar (n % 16) (Nat.mod_lt _ (by decide))
      have hinit := ih (n / 16)
      rw [ofHexDigits] at hinit ⊢
      rw [hexDigits, List.foldl_append, hinit, List.foldl_cons, List.foldl_nil, hlast,
        Nat.pow_succ', Nat.mod_mul]
      omega

theorem unescape_escape (c : Char) (cs : List Char) : unescape (escape c ++ cs) = some (c, cs) := by
  unfold escape
  split_ifs with h1 h2 h3 h4 h5 h6 h7 h8
  · rw [h1]; rfl
  · rw [h2]; rfl
  · rw [h3]; rfl
  · rw [h4]; rfl
  · rw [h5]; rfl
  · rw [h6]; rfl
  · rw [h7]; rfl
  · have hread := ofHexDigits_hexDigits 4 c.toNat
    rw [Nat.mod_eq_of_lt (by omega)] at hread
    show some (Char.ofNat (ofHexDigits (hexDigits 4 c.toNat)), cs) = _
    rw [hread, Char.ofNat_toNat]
  · simp only [List.cons_append, List.nil_append]
    unfold unescape
    split <;> simp_all

theorem escape_ne_nil (c : Char) : escape c ≠ [] := by
  unfold escape
  split_ifs <;> simp

theorem readBody_escape {fuel : Nat} {body cs : List Char} (h : body.length < fuel) :
    readBody fuel (body.flatMap escape ++ '"' :: cs) = some (body, cs) := by
  induction body generalizing fuel with
  | nil =>
      obtain ⟨fuel, rfl⟩ := Nat.exists_eq_succ_of_ne_zero (Nat.ne_of_gt h)
      rfl
  | cons c body ih =>
      obtain ⟨fuel, rfl⟩ := Nat.exists_eq_succ_of_ne_zero (Nat.ne_of_gt (Nat.zero_lt_of_lt h))
      rw [List.flatMap_cons, List.append_assoc, readBody, unescape_escape]
      show (readBody fuel _).map _ = _
      rw [ih (Nat.lt_of_succ_lt_succ h)]
      rfl

theorem length_le_flatMap_escape (cs : List Char) : cs.length ≤ (cs.flatMap escape).length := by
  induction cs with
  | nil => simp
  | cons c cs ih =>
      have hpos := List.length_pos_iff.mpr (escape_ne_nil c)
      rw [List.flatMap_cons, List.length_append, List.length_cons]
      omega

theorem readQuoted_quoted {fuel : Nat} {s : String} {cs : List Char}
    (h : (quoted s).length ≤ fuel) : readQuoted fuel (quoted s ++ cs) = some (s, cs) := by
  have hle := length_le_flatMap_escape s.toList
  have hbody : s.toList.length < fuel := by
    simp only [quoted, List.length_cons, List.length_append, List.length_nil] at h
    omega
  rw [quoted, List.cons_append, List.append_assoc, readQuoted]
  show (readBody fuel (s.toList.flatMap escape ++ '"' :: cs)).map _ = _
  rw [readBody_escape hbody]
  simp

/-! ### Numbers -/

/-- `cs` does not go on with a digit. -/
def Stops (cs : List Char) : Prop := ∀ c ∈ cs.head?, c.isDigit = false

theorem stops_cons {c : Char} {cs : List Char} : Stops (c :: cs) ↔ c.isDigit = false := by
  simp [Stops]

theorem readNat_toDigits (n : Nat) {cs : List Char} (h : Stops cs) :
    readNat (Nat.toDigits 10 n ++ cs) = (n, cs) := by
  have hdigits : ∀ c ∈ Nat.toDigits 10 n, c.isDigit := fun c hc =>
    Nat.isDigit_of_mem_toDigits (by decide) (by decide) hc
  have htake : cs.takeWhile Char.isDigit = [] ∧ cs.dropWhile Char.isDigit = cs := by
    cases cs with
    | nil => exact ⟨rfl, rfl⟩
    | cons c cs =>
        have hc := stops_cons.mp h
        simp [hc]
  rw [readNat, List.takeWhile_append_of_pos hdigits, List.dropWhile_append_of_pos hdigits, htake.1,
    htake.2, List.append_nil, Nat.ofDigitChars_toDigits (by decide) (by decide)]

/-- The first character of a number that is not negative. -/
theorem toDigits_head (n : Nat) : ∃ c cs, Nat.toDigits 10 n = c :: cs ∧ c.isDigit := by
  obtain ⟨c, cs, h⟩ := List.exists_cons_of_ne_nil (Nat.toDigits_ne_nil (b := 10) (n := n))
  exact ⟨c, cs, h, Nat.isDigit_of_mem_toDigits (by decide) (by decide) (h ▸ List.mem_cons_self)⟩

theorem not_blank_of_isDigit {c : Char} (h : c.isDigit) : blank c = false := by
  by_contra hblank
  simp only [Bool.not_eq_false, blank, Bool.or_eq_true, decide_eq_true_eq] at hblank
  rcases hblank with ((rfl | rfl) | rfl) | rfl <;> exact absurd h (by decide)

theorem dropWhile_blank {ws cs : List Char} (h : ∀ c ∈ ws, blank c) :
    (ws ++ cs).dropWhile blank = cs.dropWhile blank := List.dropWhile_append_of_pos h

theorem dropWhile_of_head {c : Char} {cs : List Char} (h : blank c = false) :
    (c :: cs).dropWhile blank = c :: cs := List.dropWhile_cons_of_neg (by simp [h])

theorem dropWhile_quoted {key : String} {cs : List Char} :
    (quoted key ++ cs).dropWhile blank = quoted key ++ cs := dropWhile_of_head (by decide)

/-! ### Values -/

/-- Induction on a value: an array or an object after all that it holds. -/
@[elab_as_elim]
theorem Value.ind {motive : Value → Prop} (null : motive .null) (bool : ∀ b, motive (.bool b))
    (number : ∀ n, motive (.number n)) (string : ∀ s, motive (.string s))
    (array : ∀ items, (∀ item ∈ items, motive item) → motive (.array items))
    (object : ∀ fields : List (String × Value), (∀ field ∈ fields, motive field.2) →
      motive (.object fields)) (v : Value) : motive v :=
  @Value.rec motive (fun items => ∀ item ∈ items, motive item)
    (fun fields => ∀ field ∈ fields, motive field.2) (fun field => motive field.2)
    null bool number string array object (by simp)
      (fun _ _ h hs => List.forall_mem_cons.mpr ⟨h, hs⟩)
    (by simp) (fun _ _ h hs => List.forall_mem_cons.mpr ⟨h, hs⟩) (fun _ _ h => h) v

section
variable (s : Spacing)

/-- A value starts with a character that is no white space and closes nothing. -/
theorem text_head (depth : Nat) (v : Value) :
    ∃ c cs, v.text s depth = c :: cs ∧ blank c = false ∧ c ≠ ']' := by
  match v with
  | .null | .bool true | .bool false | .array [] | .object [] | .string _ | .array (_ :: _)
  | .object ((_, _) :: _) => exact ⟨_, _, rfl, by decide, by decide⟩
  | .number (.negSucc n) => exact ⟨_, _, rfl, by decide, by decide⟩
  | .number (.ofNat n) =>
      obtain ⟨c, cs, h, hc⟩ := toDigits_head n
      refine ⟨c, cs, h, not_blank_of_isDigit hc, ?_⟩
      rintro rfl
      exact absurd hc (by decide)

/-- White space or a bracket does not go on with a digit. -/
theorem stops_gap (depth : Nat) {c : Char} {cs : List Char} (h : c.isDigit = false) :
    Stops (s.gap depth ++ c :: cs) := by
  cases hgap : s.gap depth with
  | nil => exact stops_cons.mpr h
  | cons b bs =>
      have hb := s.gap_blank depth b (hgap ▸ List.mem_cons_self)
      refine stops_cons.mpr ?_
      by_contra hdigit
      rw [not_blank_of_isDigit (by simpa using hdigit)] at hb
      cases hb

theorem stops_itemsText (depth : Nat) (items : List Value) (cs : List Char) :
    Stops (itemsText s depth items ++ cs) := by
  cases items with
  | nil =>
      rw [itemsText, List.append_assoc]
      exact stops_gap s depth (by decide)
  | cons item items => exact stops_cons.mpr (by decide)

theorem stops_fieldsText (depth : Nat) (fields : List (String × Value)) (cs : List Char) :
    Stops (fieldsText s depth fields ++ cs) := by
  cases fields with
  | nil =>
      rw [fieldsText, List.append_assoc]
      exact stops_gap s depth (by decide)
  | cons field fields => exact stops_cons.mpr (by decide)

/-- A number is read back. -/
theorem readValue_decimal {fuel : Nat} {n : Int} {cs : List Char} (h : Stops cs) :
    readValue (fuel + 1) (decimal n ++ cs) = some (.number n, cs) := by
  cases n with
  | ofNat n =>
      obtain ⟨c, ds, hds, hc⟩ := toDigits_head n
      have hread := readNat_toDigits n h
      rw [decimal, readValue]
      rw [hds] at hread ⊢
      rw [List.cons_append] at hread ⊢
      rw [dropWhile_of_head (not_blank_of_isDigit hc)]
      split <;> simp_all
  | negSucc n =>
      rw [decimal, List.cons_append, readValue, dropWhile_of_head (by decide)]
      simp only [readNat_toDigits (n + 1) h]
      rfl

theorem length_itemsText_pos (depth : Nat) (items : List Value) :
    0 < (itemsText s depth items).length := by
  cases items <;> simp [itemsText]

theorem length_fieldsText_pos (depth : Nat) (fields : List (String × Value)) :
    0 < (fieldsText s depth fields).length := by
  cases fields <;> simp [fieldsText]

/-- An array that has an item is read as its items. -/
theorem readValue_open {fuel depth : Nat} {item : Value} {cs : List Char} :
    readValue (fuel + 1) ('[' :: (s.gap depth ++ item.text s depth ++ cs)) =
      (readItems fuel (',' :: (s.gap depth ++ item.text s depth ++ cs))).map
        fun (items, cs) => (.array items, cs) := by
  obtain ⟨c, rest, hc, hclose⟩ :
      ∃ c rest, s.gap depth ++ item.text s depth ++ cs = c :: rest ∧ c ≠ ']' := by
    cases hgap : s.gap depth with
    | nil =>
        obtain ⟨c, rest, htext, -, hclose⟩ := text_head s depth item
        exact ⟨c, rest ++ cs, by rw [List.nil_append, htext, List.cons_append], hclose⟩
    | cons c rest =>
        refine ⟨c, rest ++ item.text s depth ++ cs, rfl, ?_⟩
        rintro rfl
        exact absurd (s.gap_blank depth _ (hgap ▸ List.mem_cons_self)) (by decide)
  rw [hc, readValue, dropWhile_of_head (by decide)]
  split <;> simp_all

/-- An object that has a field is read as its fields. -/
theorem readValue_openObject {fuel depth : Nat} {key : String} {cs : List Char} :
    readValue (fuel + 1) ('{' :: (s.gap depth ++ quoted key ++ cs)) =
      (readFields fuel (',' :: (s.gap depth ++ quoted key ++ cs))).map
        fun (fields, cs) => (.object fields, cs) := by
  obtain ⟨c, rest, hc, hclose⟩ : ∃ c rest, s.gap depth ++ quoted key ++ cs = c :: rest ∧
      c ≠ '}' := by
    cases hgap : s.gap depth with
    | nil => exact ⟨'"', _, rfl, by decide⟩
    | cons c rest =>
        refine ⟨c, rest ++ quoted key ++ cs, rfl, ?_⟩
        rintro rfl
        exact absurd (s.gap_blank depth _ (hgap ▸ List.mem_cons_self)) (by decide)
  rw [hc, readValue, dropWhile_of_head (by decide)]
  split <;> simp_all

theorem readValue_blank {fuel : Nat} {ws cs : List Char} (h : ∀ c ∈ ws, blank c) :
    readValue fuel (ws ++ cs) = readValue fuel cs := by
  cases fuel with
  | zero => rfl
  | succ fuel => rw [readValue, readValue, dropWhile_blank h]

/-- The text of `v` is read back. -/
def Reads (v : Value) : Prop :=
  ∀ (depth : Nat) {fuel : Nat} {cs : List Char}, (v.text s depth).length < fuel → Stops cs →
    readValue fuel (v.text s depth ++ cs) = some (v, cs)

variable {s}

theorem readItems_itemsText {items : List Value} (h : ∀ item ∈ items, Reads s item) {fuel : Nat}
    (depth : Nat) (cs : List Char) (hf : (itemsText s depth items).length ≤ fuel) :
    readItems fuel (itemsText s depth items ++ cs) = some (items, cs) := by
  obtain ⟨fuel, rfl⟩ := Nat.exists_eq_succ_of_ne_zero
    (Nat.ne_of_gt (Nat.lt_of_lt_of_le (length_itemsText_pos s depth items) hf))
  induction items generalizing fuel with
  | nil =>
      rw [itemsText, List.append_assoc, readItems, dropWhile_blank (s.gap_blank depth)]
      rfl
  | cons item items ih =>
      have hpos := length_itemsText_pos s depth items
      simp only [itemsText, List.length_cons, List.length_append] at hf
      -- the text of the item and its separator leave fuel for the others
      obtain ⟨fuel, rfl⟩ : ∃ n, fuel = n + 1 := ⟨fuel - 1, by omega⟩
      have hitem := h item List.mem_cons_self (depth + 1)
        (show (item.text s (depth + 1)).length < fuel + 1 by omega)
        (stops_itemsText s depth items cs)
      have hitems := ih (fun v hv => h v (List.mem_cons_of_mem _ hv)) fuel (by omega)
      rw [itemsText, List.cons_append, List.append_assoc, List.append_assoc, readItems,
        dropWhile_of_head (by decide)]
      show (readValue (fuel + 1) _ >>= _) = _
      rw [readValue_blank (s.gap_blank _), hitem]
      show (readItems (fuel + 1) _ >>= _) = _
      rw [hitems]
      rfl

theorem readFields_fieldsText {fields : List (String × Value)}
    (h : ∀ field ∈ fields, Reads s field.2) {fuel : Nat} (depth : Nat) (cs : List Char)
    (hf : (fieldsText s depth fields).length ≤ fuel) :
    readFields fuel (fieldsText s depth fields ++ cs) = some (fields, cs) := by
  obtain ⟨fuel, rfl⟩ := Nat.exists_eq_succ_of_ne_zero
    (Nat.ne_of_gt (Nat.lt_of_lt_of_le (length_fieldsText_pos s depth fields) hf))
  induction fields generalizing fuel with
  | nil =>
      rw [fieldsText, List.append_assoc, readFields, dropWhile_blank (s.gap_blank depth)]
      rfl
  | cons field fields ih =>
      obtain ⟨key, value⟩ := field
      have hpos := length_fieldsText_pos s depth fields
      simp only [fieldsText, List.length_cons, List.length_append] at hf
      obtain ⟨fuel, rfl⟩ : ∃ n, fuel = n + 1 := ⟨fuel - 1, by omega⟩
      have hvalue := h (key, value) List.mem_cons_self (depth + 1)
        (show (value.text s (depth + 1)).length < fuel + 1 by omega)
        (stops_fieldsText s depth fields cs)
      have hfields := ih (fun v hv => h v (List.mem_cons_of_mem _ hv)) fuel (by omega)
      rw [fieldsText, List.cons_append, List.append_assoc, List.append_assoc, readFields,
        dropWhile_of_head (by decide)]
      -- the key, the colon and the value, each after its blanks
      show (readQuoted (fuel + 1) (List.dropWhile blank _) >>= _) = _
      rw [List.append_assoc, dropWhile_blank (s.gap_blank _), dropWhile_quoted,
        readQuoted_quoted (by omega)]
      show (readValue (fuel + 1) (s.colon ++ _ ++ _) >>= _) = _
      rw [List.append_assoc, readValue_blank s.colon_blank, hvalue]
      show (readFields (fuel + 1) _ >>= _) = _
      rw [hfields]
      rfl

variable (s)

variable {s} in
/-- Some fuel is left for the first character. -/
theorem Reads.of_succ {v : Value} (h : ∀ (depth fuel : Nat) (cs : List Char),
    (v.text s depth).length ≤ fuel → Stops cs →
      readValue (fuel + 1) (v.text s depth ++ cs) = some (v, cs)) : Reads s v := by
  intro depth fuel cs hf hcs
  obtain ⟨fuel, rfl⟩ := Nat.exists_eq_succ_of_ne_zero (Nat.ne_of_gt (Nat.zero_lt_of_lt hf))
  exact h depth fuel cs (Nat.le_of_lt_succ hf) hcs

/-- The text of a value is read back. -/
theorem readValue_text (v : Value) : Reads s v := by
  induction v using Value.ind with
  | null => exact .of_succ fun _ _ _ _ _ => rfl
  | bool b =>
      refine .of_succ fun depth fuel cs _ _ => ?_
      cases b <;> rfl
  | number n => exact .of_succ fun _ _ _ _ hcs => readValue_decimal hcs
  | string text =>
      refine .of_succ fun depth fuel cs hf _ => ?_
      show (readQuoted fuel (quoted text ++ cs)).map _ = _
      rw [readQuoted_quoted hf]
      rfl
  | array items ih =>
      refine .of_succ fun depth fuel cs hf _ => ?_
      cases items with
      | nil => rfl
      | cons item items =>
          have hread := readItems_itemsText ih depth cs hf
          rw [itemsText, List.cons_append, List.append_assoc] at hread
          rw [Value.text, List.cons_append, List.append_assoc, readValue_open s, hread]
          rfl
  | object fields ih =>
      refine .of_succ fun depth fuel cs hf _ => ?_
      cases fields with
      | nil => rfl
      | cons field fields =>
          have hread := readFields_fieldsText ih depth cs hf
          rw [fieldsText, List.cons_append, List.append_assoc, List.append_assoc] at hread
          rw [Value.text, List.cons_append, List.append_assoc, List.append_assoc,
            readValue_openObject s, hread]
          rfl

/-- A text is read back as its value. -/
theorem read_text (v : Value) : read (v.text s 0) = some v := by
  have hread := @readValue_text s v 0 _ [] (Nat.lt_succ_self _) (by simp [Stops])
  rw [List.append_nil] at hread
  rw [read, hread]
  rfl

/-- A value is determined by its text. -/
theorem text_injective : Function.Injective (Value.text s 0) := fun v w h => by
  have hread := read_text s v
  rw [h, read_text s w] at hread
  exact (Option.some.inj hread).symm

end

/-! ### Lines -/

theorem newline_not_mem_hexDigits (width n : Nat) : '\n' ∉ hexDigits width n := by
  induction width generalizing n with
  | zero => simp [hexDigits]
  | succ width ih =>
      have hdigit : ∀ d < 16, '\n' ≠ d.digitChar := by decide
      rw [hexDigits, List.mem_append, List.mem_singleton]
      exact not_or.mpr ⟨ih _, hdigit _ (Nat.mod_lt _ (by decide))⟩

theorem newline_not_mem_escape (c : Char) : '\n' ∉ escape c := by
  unfold escape
  split_ifs with h1 h2 h3 h4 h5 h6 h7 h8
  · decide
  · decide
  · decide
  · decide
  · decide
  · decide
  · decide
  · exact List.not_mem_cons_of_ne_of_not_mem (by decide)
      (List.not_mem_cons_of_ne_of_not_mem (by decide) (newline_not_mem_hexDigits 4 _))
  · exact fun h => h5 (List.mem_singleton.mp h).symm

theorem newline_not_mem_quoted (s : String) : '\n' ∉ quoted s := by
  simp only [quoted, List.mem_cons, List.mem_append, List.mem_flatMap, not_or, not_exists, not_and,
    List.not_mem_nil, not_false_eq_true, and_true]
  exact ⟨by decide, fun c _ => newline_not_mem_escape c, by decide⟩

theorem newline_not_mem_decimal (n : Int) : '\n' ∉ decimal n := by
  have hdigits (n : Nat) : '\n' ∉ Nat.toDigits 10 n := fun h =>
    absurd (Nat.isDigit_of_mem_toDigits (by decide) (by decide) h) (by decide)
  cases n with
  | ofNat n => exact hdigits n
  | negSucc n => exact List.not_mem_cons_of_ne_of_not_mem (by decide) (hdigits _)

theorem newline_not_mem_itemsText {items : List Value} (depth : Nat)
    (h : ∀ item ∈ items, '\n' ∉ item.text .compact (depth + 1)) :
    '\n' ∉ itemsText .compact depth items := by
  induction items with
  | nil => simp [itemsText, Spacing.compact]
  | cons item items ih =>
      have hitem := h item List.mem_cons_self
      have hitems := ih fun v hv => h v (List.mem_cons_of_mem _ hv)
      simp only [itemsText, Spacing.compact, List.nil_append, List.mem_cons, List.mem_append,
        not_or]
      exact ⟨by decide, hitem, hitems⟩

theorem newline_not_mem_fieldsText {fields : List (String × Value)} (depth : Nat)
    (h : ∀ field ∈ fields, '\n' ∉ field.2.text .compact (depth + 1)) :
    '\n' ∉ fieldsText .compact depth fields := by
  induction fields with
  | nil => simp [fieldsText, Spacing.compact]
  | cons field fields ih =>
      have hvalue := h field List.mem_cons_self
      have hfields := ih fun f hf => h f (List.mem_cons_of_mem _ hf)
      simp only [fieldsText, Spacing.compact, List.nil_append, List.mem_cons, List.mem_append,
        not_or]
      exact ⟨by decide, ⟨newline_not_mem_quoted _, by decide, hvalue⟩, hfields⟩

/-- A compact text is one line. -/
theorem newline_not_mem_text (v : Value) (depth : Nat) : '\n' ∉ v.text .compact depth := by
  induction v using Value.ind generalizing depth with
  | null => simp [Value.text]
  | bool b => cases b <;> simp [Value.text]
  | number n => exact newline_not_mem_decimal n
  | string s => exact newline_not_mem_quoted s
  | array items ih =>
      cases items with
      | nil => simp [Value.text]
      | cons item items =>
          have hitem := ih item List.mem_cons_self (depth + 1)
          have hitems := newline_not_mem_itemsText depth fun v hv =>
            ih v (List.mem_cons_of_mem _ hv) (depth + 1)
          simp only [Value.text, Spacing.compact, List.nil_append, List.mem_cons, List.mem_append,
            not_or]
          exact ⟨by decide, hitem, hitems⟩
  | object fields ih =>
      cases fields with
      | nil => simp [Value.text]
      | cons field fields =>
          have hvalue := ih field List.mem_cons_self (depth + 1)
          have hfields := newline_not_mem_fieldsText depth fun f hf =>
            ih f (List.mem_cons_of_mem _ hf) (depth + 1)
          simp only [Value.text, Spacing.compact, List.nil_append, List.mem_cons, List.mem_append,
            not_or]
          exact ⟨by decide, ⟨newline_not_mem_quoted _, by decide, hvalue⟩, hfields⟩

section
variable {α β : Type}

/-- What stands before the first separator, and what stands after it. -/
theorem append_sep_inj {sep : β} {as bs as' bs' : List β} (ha : sep ∉ as) (hb : sep ∉ bs)
    (h : as ++ sep :: as' = bs ++ sep :: bs') : as = bs ∧ as' = bs' := by
  induction as generalizing bs with
  | nil =>
      cases bs with
      | nil => exact ⟨rfl, (List.cons.inj h).2⟩
      | cons b bs => exact absurd (List.cons.inj h).1 (List.ne_of_not_mem_cons hb)
  | cons a as ih =>
      cases bs with
      | nil => exact absurd (List.cons.inj h).1.symm (List.ne_of_not_mem_cons ha)
      | cons b bs =>
          obtain ⟨rfl, htail⟩ := List.cons.inj h
          obtain ⟨rfl, hrest⟩ :=
            ih (List.not_mem_of_not_mem_cons ha) (List.not_mem_of_not_mem_cons hb) htail
          exact ⟨rfl, hrest⟩

/-- Texts without the separator are determined by what they give joined. -/
theorem joined_injective {f : α → List β} {sep : β} (hf : Function.Injective f)
    (hsep : ∀ a, sep ∉ f a) :
    Function.Injective fun as : List α => as.flatMap fun a => f a ++ [sep] := by
  intro as bs h
  induction as generalizing bs with
  | nil =>
      cases bs with
      | nil => rfl
      | cons b bs => simp at h
  | cons a as ih =>
      cases bs with
      | nil => simp at h
      | cons b bs =>
          simp only [List.flatMap_cons, List.append_assoc, List.singleton_append] at h
          obtain ⟨hab, hrest⟩ := append_sep_inj (hsep a) (hsep b) h
          rw [hf hab, ih hrest]

end

end Vesta.Json
