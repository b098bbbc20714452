import Vesta.Output.Exact

/-!
# Output — Numbers

The numbers in what is printed.  A reader that keeps numbers in floating point, of 64 bits, loses
what is past 2^53.  Whatever the device sent and the radio measured stays below that: the
identifiers of 64 bits are printed as text.  What the receiver counts itself, such as the ids of its
packets, is printed as it is.
-/

namespace Vesta.Output

open Json (Value Serialize value record effective)
open Protocol (DecodedFrame TelemetryV1)
open Receiver

/-- An integer that a reader with 64-bit floating point numbers keeps. -/
def safeInteger (n : Int) : Prop := n.natAbs < 2 ^ 53

/-- Every number in a value of `α` is safe. -/
class Safe (α : Type) [Serialize α] : Prop where
  safe : ∀ a : α, (value a).Numbers safeInteger

section
variable {α : Type} [Serialize α] [Safe α]

@[simp] theorem numbers_value (a : α) : (value a).Numbers safeInteger := Safe.safe a

instance : Safe Bool := ⟨fun b => .bool b⟩
instance : Safe String := ⟨fun s => .string s⟩
instance : Safe UInt8 := ⟨fun x => .number (by have := x.toNat_lt; simp only [safeInteger]; omega)⟩
instance : Safe UInt16 := ⟨fun x => .number (by have := x.toNat_lt; simp only [safeInteger]; omega)⟩
instance : Safe UInt32 := ⟨fun x => .number (by have := x.toNat_lt; simp only [safeInteger]; omega)⟩
instance : Safe Int8 := ⟨fun x => .number (by
  have := x.toInt_lt
  have := x.le_toInt
  simp only [safeInteger]
  omega)⟩
instance : Safe Int16 := ⟨fun x => .number (by
  have := x.toInt_lt
  have := x.le_toInt
  simp only [safeInteger]
  omega)⟩

instance : Safe (List α) := ⟨fun as => .array (by simp)⟩
instance [Json.Solid α] : Safe (Option α) := ⟨fun a => by
  cases a
  · exact .null
  · exact Safe.safe (α := α) _⟩
instance : Safe (α × α × α) := ⟨fun a => Safe.safe [a.1, a.2.1, a.2.2]⟩
end

instance : Safe RadioMetadata := ⟨fun r => Json.numbers_record (by simp [radioColumns, effective])⟩
instance : Safe HeaterStepConfiguration :=
  ⟨fun r => Json.numbers_record (by simp [heaterStepColumns, effective])⟩
instance : Safe ProfileStep := ⟨fun r => Json.numbers_record (by simp [stepColumns, effective])⟩

@[simp] theorem numbers_identityJson (identity : RecordIdentity) :
    (identityJson identity).Numbers safeInteger :=
  Json.numbers_record (by simp [identityJsonColumns, effective])

@[simp] theorem numbers_two : (Value.number 2).Numbers safeInteger :=
    .number (by simp [safeInteger])

theorem numbers_exactConfiguration (c : DeviceConfiguration) :
    (record exactConfigurationColumns c).Numbers safeInteger :=
  Json.numbers_record (by simp [exactConfigurationColumns, configurationColumns, effective])

theorem numbers_exactHealth (h : DeviceHealth) :
    (record exactHealthColumns h).Numbers safeInteger :=
  Json.numbers_record (by simp [exactHealthColumns, healthColumns, effective])

theorem numbers_envelope {t : String} {v : Value} {radio : Option RadioMetadata}
    (h : v.Numbers safeInteger) : (record envelopeColumns (t, v, radio)).Numbers safeInteger :=
  Json.numbers_record (by simp [envelopeColumns, effective, h])

theorem Prints.numbers {radio : Option RadioMetadata} {f : DecodedFrame} {v : Value}
    (h : Prints radio f v) : v.Numbers safeInteger := by
  cases h with
  | deviceConfig => exact numbers_envelope (numbers_exactConfiguration _)
  | profileFragment => exact Json.numbers_record (by simp [fragmentColumns, effective])
  | deviceHealth => exact numbers_envelope (numbers_exactHealth _)

theorem numbers_telemetryJson (f : TelemetryV1) (radio : Option RadioMetadata) :
    (telemetryJson f radio).Numbers safeInteger := by
  have hobject {fields : List (String × Value)} :
      (Value.object fields).Numbers safeInteger ↔ ∀ field ∈ fields, field.2.Numbers safeInteger :=
    ⟨fun | .object h => h, .object⟩
  cases radio <;>
    simp [telemetryJson, jsonFrame, jsonReceivedFrame, hobject, jsonFrameFields, radioColumns]

/-- The numbers in a report that the receiver counted itself. -/
def Report.hostNumbers : Report → List Int
  | .packet _ _ _ _ => []
  | .profile q =>
      (q.scan.duplicateFragmentCount : Int) :: q.scan.conflictingFragmentCount ::
        q.fragments.flatMap fun f => [f.packetId, f.receivedAtUnixMs]
  | .integrity _ packetId _ => [packetId]

theorem numbers_sourceFragment {f : SourceFragment} (hid : safeInteger f.packetId)
    (hat : safeInteger f.receivedAtUnixMs) : (value f).Numbers safeInteger := by
  have hid : (value f.packetId).Numbers safeInteger := .number hid
  have hat : (value f.receivedAtUnixMs).Numbers safeInteger := .number hat
  exact Json.numbers_record (by simp [sourceColumns, effective, hid, hat])

theorem numbers_profileJson {q : ReassembledProfile}
    (h : ∀ n ∈ (Report.profile q).hostNumbers, safeInteger n) :
    (profileJson q).Numbers safeInteger := by
  obtain ⟨hd, h⟩ := List.forall_mem_cons.mp h
  obtain ⟨hc, hfragments⟩ := List.forall_mem_cons.mp h
  have hduplicate : (value q.scan.duplicateFragmentCount).Numbers safeInteger := .number hd
  have hconflicting : (value q.scan.conflictingFragmentCount).Numbers safeInteger := .number hc
  have hscan : (record exactScanColumns q.scan).Numbers safeInteger :=
    Json.numbers_record
      (by simp [exactScanColumns, scanColumns, effective, hduplicate, hconflicting])
  have hsources : (value q.fragments).Numbers safeInteger := by
    refine .array fun item hitem => ?_
    obtain ⟨f, hf, rfl⟩ := List.mem_map.mp hitem
    have hown (n : Int) (hn : n ∈ [f.packetId, f.receivedAtUnixMs]) :=
      hfragments n (List.mem_flatMap.mpr ⟨f, hf, hn⟩)
    exact numbers_sourceFragment (hown _ (by simp)) (hown _ (by simp))
  exact Json.numbers_record (by simp [profileColumns, effective, hscan, hsources])

end Vesta.Output
