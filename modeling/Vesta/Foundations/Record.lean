import Mathlib.Data.List.Induction
import Mathlib.Data.String.Basic
import Vesta.Foundations.Json

/-!
# Foundations — Record

Records as JSON objects.  An object that is made from fields (`Value.ofFields`) keeps them in the
order of their keys, and a field that is set replaces the one that is there.  Where two records with
the same columns give the same object, they agree in each column that is not replaced
(`eq_of_mem_effective`).

`Serialize` gives a type its values, with the proof that no two are the same.
-/

namespace Vesta.Json

/-! ### Objects -/

/-- Set a field of an object, whose fields are in the order of their keys. -/
def insertField (field : String × Value) : List (String × Value) → List (String × Value)
  | [] => [field]
  | other :: fields =>
      if field.1 < other.1 then field :: other :: fields
      else if field.1 = other.1 then field :: fields
      else other :: insertField field fields

/-- The fields of an object whose fields are set one after the other. -/
def entries (fields : List (String × Value)) : List (String × Value) :=
  fields.foldl (fun acc field => insertField field acc) []

/-- An object made from fields. -/
def Value.ofFields (fields : List (String × Value)) : Value := .object (entries fields)

/-- The fields of an object. -/
def Value.fields : Value → List (String × Value)
  | .object fields => fields
  | _ => []

/-- Set a field of a value.  A value that is neither an object nor null has none. -/
def Value.assign : Value → String → Value → Option Value
  | .object fields, key, value => some (.object (insertField (key, value) fields))
  | .null, key, value => some (.object [(key, value)])
  | _, _, _ => none

/-- The fields that no later field replaces. -/
def effective {α : Type} : List (String × α) → List (String × α)
  | [] => []
  | field :: fields =>
      if field.1 ∈ fields.map Prod.fst then effective fields else field :: effective fields

/-- The keys ascend. -/
def Ascending (fields : List (String × Value)) : Prop := fields.Pairwise fun f g => f.1 < g.1

theorem mem_insertField {field f : String × Value} {fields : List (String × Value)}
    (h : Ascending fields) :
    f ∈ insertField field fields ↔ f = field ∨ f ∈ fields ∧ f.1 ≠ field.1 := by
  induction fields with
  | nil => simp [insertField]
  | cons other fields ih =>
      obtain ⟨hother, hfields⟩ := List.pairwise_cons.mp h
      unfold insertField
      split_ifs with hlt heq
      · have hne : ∀ g ∈ other :: fields, g.1 ≠ field.1 := by
          refine List.forall_mem_cons.mpr ⟨hlt.ne', fun g hg => (hlt.trans (hother g hg)).ne'⟩
        rw [List.mem_cons]
        exact or_congr_right ⟨fun hf => ⟨hf, hne f hf⟩, And.left⟩
      · have hne : ∀ g ∈ fields, g.1 ≠ field.1 := fun g hg => heq ▸ (hother g hg).ne'
        rw [List.mem_cons, List.mem_cons]
        refine or_congr_right ⟨fun hf => ⟨.inr hf, hne f hf⟩, ?_⟩
        rintro ⟨rfl | hf, hk⟩
        · exact absurd heq.symm hk
        · exact hf
      · rw [List.mem_cons, List.mem_cons, ih hfields]
        constructor
        · rintro (rfl | rfl | ⟨hf, hk⟩)
          · exact .inr ⟨.inl rfl, Ne.symm heq⟩
          · exact .inl rfl
          · exact .inr ⟨.inr hf, hk⟩
        · rintro (rfl | ⟨rfl | hf, hk⟩)
          · exact .inr (.inl rfl)
          · exact .inl rfl
          · exact .inr (.inr ⟨hf, hk⟩)

theorem ascending_insertField {field : String × Value} {fields : List (String × Value)}
    (h : Ascending fields) : Ascending (insertField field fields) := by
  induction fields with
  | nil => exact List.pairwise_singleton _ _
  | cons other fields ih =>
      obtain ⟨hother, hfields⟩ := List.pairwise_cons.mp h
      unfold insertField
      split_ifs with hlt heq
      · exact List.pairwise_cons.mpr ⟨List.forall_mem_cons.mpr
          ⟨hlt, fun g hg => hlt.trans (hother g hg)⟩, h⟩
      · exact List.pairwise_cons.mpr ⟨fun g hg => heq ▸ hother g hg, hfields⟩
      · refine List.pairwise_cons.mpr ⟨fun g hg => ?_, ih hfields⟩
        rcases (mem_insertField hfields).mp hg with rfl | ⟨hg, -⟩
        · exact lt_of_le_of_ne (not_lt.mp hlt) (Ne.symm heq)
        · exact hother g hg

theorem entries_append (fields : List (String × Value)) (field : String × Value) :
    entries (fields ++ [field]) = insertField field (entries fields) := by
  rw [entries, List.foldl_append]
  rfl

theorem ascending_entries (fields : List (String × Value)) : Ascending (entries fields) := by
  induction fields using List.reverseRecOn with
  | nil => exact List.Pairwise.nil
  | append_singleton fields field ih => exact entries_append .. ▸ ascending_insertField ih

section
variable {α β : Type}

theorem mem_effective_append {fields : List (String × α)} {field f : String × α} :
    f ∈ effective (fields ++ [field]) ↔ f = field ∨ f ∈ effective fields ∧ f.1 ≠ field.1 := by
  induction fields with
  | nil => simp [effective]
  | cons other fields ih =>
      by_cases hmem : other.1 ∈ fields.map Prod.fst
      · have hmem' : other.1 ∈ (fields ++ [field]).map Prod.fst := by
          rw [List.map_append]
          exact List.mem_append_left _ hmem
        rw [List.cons_append, effective, if_pos hmem', effective, if_pos hmem, ih]
      · by_cases hkey : other.1 = field.1
        · have hmem' : other.1 ∈ (fields ++ [field]).map Prod.fst := by simp [hkey]
          rw [List.cons_append, effective, if_pos hmem', effective, if_neg hmem, ih, List.mem_cons]
          refine or_congr_right (and_congr_left fun hne => ⟨.inr, ?_⟩)
          rintro (rfl | hf)
          · exact absurd hkey hne
          · exact hf
        · have hmem' : other.1 ∉ (fields ++ [field]).map Prod.fst := by
            rw [List.map_append, List.mem_append]
            exact not_or.mpr ⟨hmem, by simpa using hkey⟩
          rw [List.cons_append, effective, if_neg hmem', effective, if_neg hmem, List.mem_cons, ih,
            List.mem_cons]
          constructor
          · rintro (rfl | rfl | ⟨hf, hne⟩)
            · exact .inr ⟨.inl rfl, hkey⟩
            · exact .inl rfl
            · exact .inr ⟨.inr hf, hne⟩
          · rintro (rfl | ⟨rfl | hf, hne⟩)
            · exact .inr (.inl rfl)
            · exact .inl rfl
            · exact .inr (.inr ⟨hf, hne⟩)

theorem effective_map (fields : List (String × α)) (f : α → β) :
    effective (fields.map fun c => (c.1, f c.2)) =
      (effective fields).map fun c => (c.1, f c.2) := by
  induction fields with
  | nil => rfl
  | cons field fields ih =>
      have hkeys : (fields.map fun c => (c.1, f c.2)).map Prod.fst = fields.map Prod.fst := by
        rw [List.map_map]
        rfl
      rw [List.map_cons, effective, effective, hkeys, ih]
      split_ifs
      · rfl
      · rfl

end

theorem mem_entries {fields : List (String × Value)} {f : String × Value} :
    f ∈ entries fields ↔ f ∈ effective fields := by
  induction fields using List.reverseRecOn with
  | nil => rfl
  | append_singleton fields field ih =>
      rw [entries_append, mem_insertField (ascending_entries fields), mem_effective_append, ih]

/-- An object has one value for a key. -/
theorem Ascending.unique {fields : List (String × Value)} (h : Ascending fields) {key : String}
    {v w : Value} (hv : (key, v) ∈ fields) (hw : (key, w) ∈ fields) : v = w := by
  induction fields with
  | nil => cases hv
  | cons other fields ih =>
      obtain ⟨hother, hfields⟩ := List.pairwise_cons.mp h
      rcases List.mem_cons.mp hv with hv' | hv'
      · rcases List.mem_cons.mp hw with hw' | hw'
        · exact (Prod.mk.inj (hv'.trans hw'.symm)).2
        · exact absurd (hother _ hw') (hv' ▸ lt_irrefl key)
      · rcases List.mem_cons.mp hw with hw' | hw'
        · exact absurd (hother _ hv') (hw' ▸ lt_irrefl key)
        · exact ih hfields hv' hw'

/-! ### Columns -/

section
variable {α : Type}

/-- The object of a record with these columns. -/
def record (columns : List (String × (α → Value))) (a : α) : Value :=
  .ofFields (columns.map fun column => (column.1, column.2 a))

theorem assign_record (columns : List (String × (α → Value))) (key : String) (f : α → Value)
    (a : α) :
    (record columns a).assign key (f a) = some (record (columns ++ [(key, f)]) a) := by
  rw [record, record, List.map_append]
  show some (Value.object (insertField (key, f a) (entries _))) =
    some (.object (entries (_ ++ [(key, f a)])))
  rw [entries_append]

theorem ascending_record (columns : List (String × (α → Value))) (a : α) :
    Ascending (record columns a).fields := ascending_entries _

/-- The fields of a record are the columns that are not replaced. -/
theorem mem_record {columns : List (String × (α → Value))} {a : α} {field : String × Value} :
    field ∈ (record columns a).fields ↔
      ∃ column ∈ effective columns, (column.1, column.2 a) = field := by
  show field ∈ entries _ ↔ _
  rw [mem_entries, effective_map columns fun f => f a]
  exact List.mem_map

/-- Records that give the same object agree in every column that is not replaced. -/
theorem eq_of_mem_effective {columns : List (String × (α → Value))} {a b : α}
    (h : record columns a = record columns b) :
    ∀ column ∈ effective columns, column.2 a = column.2 b := by
  intro column hc
  have hentry (a : α) : (column.1, column.2 a) ∈ (record columns a).fields :=
    mem_record.mpr ⟨column, hc, rfl⟩
  exact (ascending_record columns a).unique (hentry a) (h ▸ hentry b)

end

/-! ### Numbers -/

/-- Every number in a value satisfies `P`. -/
inductive Value.Numbers (P : Int → Prop) : Value → Prop where
  | null : Numbers P .null
  | bool (b : Bool) : Numbers P (.bool b)
  | number {n : Int} (h : P n) : Numbers P (.number n)
  | string (s : String) : Numbers P (.string s)
  | array {items : List Value} (h : ∀ item ∈ items, Numbers P item) : Numbers P (.array items)
  | object {fields : List (String × Value)} (h : ∀ field ∈ fields, Numbers P field.2) :
      Numbers P (.object fields)

theorem numbers_record {α : Type} {P : Int → Prop} {columns : List (String × (α → Value))} {a : α}
    (h : ∀ column ∈ effective columns, (column.2 a).Numbers P) : (record columns a).Numbers P := by
  refine .object fun field hf => ?_
  obtain ⟨column, hc, rfl⟩ := mem_record.mp hf
  exact h column hc

/-! ### Serialization -/

/-- A type whose values are JSON values, each another one. -/
class Serialize (α : Type) where
  value : α → Value
  injective : Function.Injective value

export Serialize (value)

/-- No value of `α` is null. -/
class Solid (α : Type) [Serialize α] : Prop where
  ne_null : ∀ a : α, value a ≠ .null

@[simp] theorem value_inj {α : Type} [Serialize α] {a b : α} : value a = value b ↔ a = b :=
  Serialize.injective.eq_iff

instance : Serialize Bool := ⟨.bool, fun _ _ h => Value.bool.inj h⟩
instance : Serialize Int := ⟨.number, fun _ _ h => Value.number.inj h⟩
instance : Serialize Nat := ⟨fun n => .number n, fun _ _ h => Int.ofNat.inj (Value.number.inj h)⟩
instance : Serialize String := ⟨.string, fun _ _ h => Value.string.inj h⟩

instance : Serialize UInt8 :=
  ⟨fun x => value x.toNat, fun _ _ h => UInt8.toNat_inj.mp (value_inj.mp h)⟩
instance : Serialize UInt16 :=
  ⟨fun x => value x.toNat, fun _ _ h => UInt16.toNat_inj.mp (value_inj.mp h)⟩
instance : Serialize UInt32 :=
  ⟨fun x => value x.toNat, fun _ _ h => UInt32.toNat_inj.mp (value_inj.mp h)⟩
instance : Serialize UInt64 :=
  ⟨fun x => value x.toNat, fun _ _ h => UInt64.toNat_inj.mp (value_inj.mp h)⟩
instance : Serialize Int8 :=
  ⟨fun x => value x.toInt, fun _ _ h => Int8.toInt_inj.mp (value_inj.mp h)⟩
instance : Serialize Int16 :=
  ⟨fun x => value x.toInt, fun _ _ h => Int16.toInt_inj.mp (value_inj.mp h)⟩

instance : Solid UInt16 := ⟨nofun⟩
instance : Solid Int16 := ⟨nofun⟩

section
variable {α : Type} [Serialize α]

instance : Serialize (List α) where
  value as := .array (as.map value)
  injective _ _ h := List.map_injective_iff.mpr Serialize.injective (Value.array.inj h)

instance [Solid α] : Serialize (Option α) where
  value a := a.elim .null value
  injective
    | none, none, _ => rfl
    | none, some b, h => absurd h.symm (Solid.ne_null b)
    | some a, none, h => absurd h (Solid.ne_null a)
    | some _, some _, h => congrArg some (Serialize.injective h)

/-- An array of three. -/
instance : Serialize (α × α × α) where
  value a := value [a.1, a.2.1, a.2.2]
  injective a b h := by
    have hlist := value_inj.mp h
    simp only [List.cons.injEq, and_true] at hlist
    exact Prod.ext hlist.1 (Prod.ext hlist.2.1 hlist.2.2)

end

/-- A record whose columns determine it, written as an object. -/
@[reducible]
def Serialize.ofColumns {α : Type} (columns : List (String × (α → Value)))
    (h : ∀ a b, (∀ column ∈ effective columns, column.2 a = column.2 b) → a = b) : Serialize α where
  value := record columns
  injective a b hab := h a b (eq_of_mem_effective hab)

end Vesta.Json
