import Mathlib.Data.List.DropRight
import Vesta.Foundations.Tracing
import Vesta.Output.Exact
import Vesta.Protocol.Total
import Vesta.Receiver.Hex

/-!
# Output — Stream

`decode` of the command line: `write_frame` prints one frame that is given in hexadecimal digits,
and `decode_stream` those of a whole input, line by line.  A line that is no frame is reported with
its number and counted, and the rest of the input goes on.

The two outputs are the terminal (`Terminal`), which may refuse what is written.
-/

namespace Vesta.Output

open Journal (Prog)
open Journal.Prog (lift update)
open Protocol (decodeAny DecodedTelemetry ProtocolDecodeError TelemetryV1)
open Receiver (HexError parsePayloadHex)

/-! ### Lines -/

/-- Unicode `White_Space`. -/
def whiteSpace (c : Char) : Bool :=
  (0x09 ≤ c.toNat && c.toNat ≤ 0x0d) || c.toNat = 0x20 || c.toNat = 0x85 || c.toNat = 0xa0 ||
    c.toNat = 0x1680 || (0x2000 ≤ c.toNat && c.toNat ≤ 0x200a) || c.toNat = 0x2028 ||
    c.toNat = 0x2029 || c.toNat = 0x202f || c.toNat = 0x205f || c.toNat = 0x3000

/-- `str::trim`. -/
def trim (line : String) : String :=
  .ofList ((line.toList.dropWhile whiteSpace).rdropWhile whiteSpace)

/-! ### Console -/

/-- `AppError`, as far as `decode` can fail. -/
inductive AppError where
  | missingFrame
  | hex (error : HexError)
  | protocol (error : ProtocolDecodeError)
  | v2Render (error : V2RenderError)
  | io (error : String)
  | streamFailures (count : Nat)
deriving DecidableEq

/-- The outputs of the program. -/
structure Terminal (H : Type) where
  /-- `writeln!(output, ..)` -/
  output : List Char → H → Except String Unit × H
  /-- `writeln!(diagnostics, "line {line_number}: {error}")` -/
  diagnostics : Nat → AppError → H → Except String Unit × H

/-- What was written. -/
inductive Entry where
  | output (text : List Char)
  | diagnostic (lineNumber : Nat) (error : AppError)

/-- The terminal, and what it took, oldest first. -/
structure Console (H : Type) where
  host : H
  log : List Entry

/-- A program of `decode`.  Nothing of it is durable. -/
abbrev Command (H α : Type) := Prog Empty (Console H) (Fault AppError) α

section
variable {H : Type}

/-- Write an entry. -/
def writeEntry (write : H → Except String Unit × H) (entry : Entry) : Command H Unit := do
  let written ← update fun c =>
    let (written, host) := write c.host
    .ok (written, ⟨host, c.log ++ written.toOption.toList.map fun _ => entry⟩)
  lift (written.mapError fun e => .error (.io e))

variable (t : Terminal H) (p : Presentation) (format : OutputFormat)

/-- `write_decoded_frame`. -/
def writeDecodedFrame (frame : TelemetryV1) : Command H Unit :=
  let text := render p frame format
  writeEntry (t.output text) (.output text)

/-- `write_frame`. -/
def writeFrame (encoded : String) : Command H Unit := do
  let payload ← lift (Outcome.mapErr .hex (parsePayloadHex encoded))
  match ← lift (Outcome.mapErr .protocol (decodeAny payload)) with
  | .v1 frame => writeDecodedFrame t p format frame
  | .v2 frame => do
      let text ← lift (Outcome.mapErr .v2Render (renderV2 p frame format none))
      writeEntry (t.output text) (.output text)

/-- One line of `decode_stream`, with the failures before it. -/
def decodeLine (failures : Nat) (line : Except String String × Nat) : Command H Nat := do
  let text ← lift (line.1.mapError fun e => .error (.io e))
  let frame := trim text
  if frame.isEmpty then return failures
  (do writeFrame t p format frame; return failures).orElse fun
    | .panicked => lift (.error .panicked)
    | .error e => do
        writeEntry (t.diagnostics line.2 e) (.diagnostic line.2 e)
        return failures + 1

/-- `decode_stream`.  A line of the input is read, or cannot be. -/
def decodeStream (lines : List (Except String String)) : Command H Unit := do
  let failures ← (lines.zipIdx 1).foldlM (decodeLine t p format) 0
  if failures = 0 then return () else lift (.error (.error (.streamFailures failures)))

/-- The `decode` command. -/
def decodeCommand (frame : Option String) (stdin : Bool) (input : List (Except String String)) :
    Command H Unit :=
  if stdin then decodeStream t p format input
  else do
    let frame ← lift (frame.elim (.error (.error .missingFrame)) .ok)
    writeFrame t p format frame

end

/-! ### What a line gives -/

section
variable (p : Presentation) (format : OutputFormat)

/-- What is printed for a frame in hexadecimal digits. -/
def accept (encoded : String) : Outcome AppError (List Char) := do
  let payload ← Outcome.mapErr .hex (parsePayloadHex encoded)
  let frame ← Outcome.mapErr .protocol (decodeAny payload)
  Outcome.mapErr .v2Render (rendered p format none frame)

/-- The entry of a line. -/
def entry (line : String × Nat) : Option Entry :=
  if (trim line.1).isEmpty then none
  else match accept p format (trim line.1) with
    | .ok text => some (.output text)
    | .error (.error e) => some (.diagnostic line.2 e)
    | .error .panicked => none

theorem rendered_returns {payload : List UInt8} {frame : DecodedTelemetry}
    (h : decodeAny payload = .ok frame) : ∃ text, rendered p format none frame = .ok text := by
  cases frame with
  | v1 f => exact ⟨_, rfl⟩
  | v2 f =>
      obtain ⟨v, hv⟩ := frameJson_returns none (Protocol.decodeAny_v2.mp h)
      refine ⟨p.write format v, ?_⟩
      rw [rendered, renderV2, hv]
      rfl

/-- No text makes the decoder panic. -/
theorem accept_ne_panicked (encoded : String) : accept p format encoded ≠ .error .panicked := by
  have hparse : Protocol.Returns (Outcome.mapErr AppError.hex (parsePayloadHex encoded)) :=
    .mapErr ((Receiver.parsePayloadHex_ends encoded).mono (fun _ _ => trivial) fun _ _ => trivial)
  have hdecode (payload : List UInt8) : Outcome.Ends (fun frame => decodeAny payload = .ok frame)
      (fun _ => True) (Outcome.mapErr AppError.protocol (decodeAny payload)) :=
    .mapErr ((Outcome.Ends.of_ne_panicked (Protocol.decodeAny_returns payload).ne_panicked).mono
      (fun _ h => h) fun _ _ => trivial)
  refine Outcome.Ends.ne_panicked (Q := fun _ => True)
    (hparse.bind fun payload _ => (hdecode payload).bind fun frame hframe => ?_)
  obtain ⟨text, htext⟩ := rendered_returns p format hframe
  rw [htext]
  trivial

variable {H : Type} (t : Terminal H)

theorem writeFrame_eq (encoded : String) : writeFrame t p format encoded =
    (lift (accept p format encoded) >>= fun text => writeEntry (t.output text) (.output text)) := by
  rw [writeFrame, accept]
  cases Outcome.mapErr AppError.hex (parsePayloadHex encoded) with
  | error e => rfl
  | ok payload =>
      rw [Journal.lift_ok_bind, Outcome.ok_bind]
      cases Outcome.mapErr AppError.protocol (decodeAny payload) with
      | error e => rfl
      | ok frame =>
          rw [Journal.lift_ok_bind, Outcome.ok_bind]
          cases frame <;> rfl

/-! ### What a run writes -/

/-- The entries that were written between two states. -/
def logged (H : Type) : Tracing.Recording Empty (Console H) Entry where
  After c es c' := c'.log = c.log ++ es
  Saw _ _ d := d.elim
  refl _ := (List.append_nil _).symm
  trans h h' := by rw [h', h, List.append_assoc]
  saw := fun {_ _ d _ _} _ _ => d.elim

/-- How many of the entries are diagnostics. -/
def diagnosed (es : List Entry) : Nat := es.countP fun
  | .diagnostic _ _ => true
  | .output _ => false

/-- Whatever the terminal fails with satisfies `Refuse`. -/
structure Terminal.Fails (Refuse : String → Prop) : Prop where
  output : ∀ text h e, (t.output text h).1 = .error e → Refuse e
  diagnostics : ∀ n error h e, (t.diagnostics n error h).1 = .error e → Refuse e

/-- What a line leaves.  A frame that the terminal refuses is reported as a failure of its line. -/
inductive Took (Refuse : String → Prop) : Except String String × Nat → List Entry → Prop where
  | blank {text : String} {n : Nat} (h : (trim text).isEmpty) : Took Refuse (.ok text, n) []
  | printed {text : String} {n : Nat} {out : List Char} (h : ¬ (trim text).isEmpty)
      (ha : accept p format (trim text) = .ok out) : Took Refuse (.ok text, n) [.output out]
  | rejected {text : String} {n : Nat} {e : AppError} (h : ¬ (trim text).isEmpty)
      (ha : accept p format (trim text) = .error (.error e)) :
      Took Refuse (.ok text, n) [.diagnostic n e]
  | refused {text : String} {n : Nat} {out : List Char} {e : String} (h : ¬ (trim text).isEmpty)
      (ha : accept p format (trim text) = .ok out) (he : Refuse e) :
      Took Refuse (.ok text, n) [.diagnostic n (.io e)]

variable {p format t} {Refuse : String → Prop}

theorem does_writeEntry {write : H → Except String Unit × H} {entry : Entry} {c : Console H}
    (h : ∀ host e, (write host).1 = .error e → Refuse e) :
    Tracing.Does (logged H) (fun _ es => es = [entry])
      (fun e es => es = [] ∧ ∃ msg, e = .error (.io msg) ∧ Refuse msg) (fun _ => False)
      (writeEntry write entry) c := by
  refine .bind
    (P := fun r es => es = r.toOption.toList.map (fun _ => entry) ∧ ∀ e, r = .error e → Refuse e)
    (E := fun _ _ => False) (K := fun _ => False) (.update ?_ nofun) ?_ nofun nofun
  · rintro r c' ⟨⟩
    exact ⟨_, rfl, rfl, h c.host⟩
  · rintro r es s' - ⟨rfl, hr⟩
    refine .lift (fun u hu => ?_) fun e he => ?_
    · cases r with
      | ok u' => rfl
      | error e => cases hu
    · cases r with
      | ok u' => cases he
      | error e' =>
          cases he
          exact ⟨rfl, e', rfl, hr e' rfl⟩

/-- What `write_frame` leaves: the text of the frame, or an error of the text or of the terminal. -/
theorem does_writeFrame (ht : t.Fails Refuse) (encoded : String) (c : Console H) :
    Tracing.Does (logged H)
      (fun _ es => ∃ out, accept p format encoded = .ok out ∧ es = [.output out])
      (fun e es => es = [] ∧ ∃ error, e = .error error ∧
        (accept p format encoded = .error (.error error) ∨
        ∃ out msg, accept p format encoded = .ok out ∧ error = .io msg ∧ Refuse msg))
      (fun _ => False)
      (writeFrame t p format encoded) c := by
  rw [writeFrame_eq]
  refine .bind (P := fun out es => accept p format encoded = .ok out ∧ es = [])
    (E := fun e es => accept p format encoded = .error e ∧ es = []) (K := fun _ => False)
    (.lift (fun out hout => ⟨hout, rfl⟩) fun e he => ⟨he, rfl⟩) ?_ ?_ nofun
  · rintro out _ c' - ⟨hout, rfl⟩
    refine (does_writeEntry (ht.output out)).mono (fun _ es hes => ⟨out, hout, hes⟩) ?_ nofun
    rintro e es ⟨rfl, msg, rfl, hmsg⟩
    exact ⟨rfl, .io msg, rfl, .inr ⟨out, msg, hout, rfl, hmsg⟩⟩
  · rintro e _ ⟨he, rfl⟩
    cases e with
    | panicked => exact absurd he (accept_ne_panicked p format encoded)
    | error error => exact ⟨rfl, error, rfl, .inl he⟩

theorem does_decodeLine (ht : t.Fails Refuse) (failures : Nat) (line : Except String String × Nat)
    (c : Console H) : Tracing.Does (logged H)
      (fun failures' es => Took p format Refuse line es ∧ failures' = failures + diagnosed es)
      (fun e _ => ∃ msg, e = .error (.io msg) ∧ (Refuse msg ∨ line.1 = .error msg)) (fun _ => False)
      (decodeLine t p format failures line) c := by
  obtain ⟨line, n⟩ := line
  rw [decodeLine]
  refine .bind (P := fun text es => line = .ok text ∧ es = [])
    (E := fun e _ => ∃ msg, e = .error (.io msg) ∧ line = .error msg) (K := fun _ => False)
    (.lift (fun text htext => ?_) fun e he => ?_) (fun text es c' _ htext => ?_) ?_ nofun
  · exact ⟨Journal.mapError_eq_ok.mp htext, rfl⟩
  · obtain ⟨msg, hmsg, rfl⟩ := Journal.mapError_eq_error.mp he
    exact ⟨msg, rfl, hmsg⟩
  · obtain ⟨rfl, rfl⟩ := htext
    dsimp only
    split_ifs with hblank
    · exact .pure ⟨.blank hblank, rfl⟩
    · refine .orElse (.bind (does_writeFrame ht (trim text) c') (fun _ es _ _ h => .pure ?_)
        (fun _ _ h => h) fun _ h => h) (fun _ _ h => h) ?_ nofun
      · obtain ⟨out, ha, rfl⟩ := h
        exact ⟨.printed hblank ha, rfl⟩
      · rintro e _ c'' - ⟨rfl, error, rfl, he⟩
        refine .bind (does_writeEntry (ht.diagnostics n error))
          (fun _ es _ _ hes => .pure ?_) ?_ nofun
        · subst hes
          rcases he with ha | ⟨out, msg, ha, rfl, hmsg⟩
          · exact ⟨.rejected hblank ha, rfl⟩
          · exact ⟨.refused hblank ha hmsg, rfl⟩
        · rintro e es ⟨rfl, msg, rfl, hmsg⟩
          exact ⟨msg, rfl, .inl hmsg⟩
  · rintro e es ⟨msg, rfl, hline⟩
    exact ⟨msg, rfl, .inr hline⟩

theorem diagnosed_append (es es' : List Entry) :
    diagnosed (es ++ es') = diagnosed es + diagnosed es' := List.countP_append

variable (p format) in
/-- What the lines of an input leave. -/
def TookAll (Refuse : String → Prop) (lines : List (Except String String)) (es : List Entry) :
    Prop :=
  ∃ ess, List.Forall₂ (Took p format Refuse) (lines.zipIdx 1) ess ∧ es = ess.flatten

variable (p format) in
theorem does_decodeStream (ht : t.Fails Refuse) (lines : List (Except String String))
    (c : Console H) :
    Tracing.Does (logged H) (fun _ es => TookAll p format Refuse lines es ∧ diagnosed es = 0)
      (fun e es => TookAll p format Refuse lines es ∧ diagnosed es ≠ 0 ∧
          e = .error (.streamFailures (diagnosed es)) ∨
        ∃ msg, e = .error (.io msg) ∧ (Refuse msg ∨ .error msg ∈ lines)) (fun _ => False)
      (decodeStream t p format lines) c := by
  have hloop : Tracing.Does (logged H)
      (fun failures es => ∃ ess, List.Forall₂ (Took p format Refuse) (lines.zipIdx 1) ess ∧
        es = ess.flatten ∧ failures = diagnosed es)
      (fun e _ => ∃ msg, e = .error (.io msg) ∧ (Refuse msg ∨ .error msg ∈ lines)) (fun _ => False)
      ((lines.zipIdx 1).foldlM (decodeLine t p format) 0) c := by
    -- the invariant: the lines so far were taken, and the failures count their diagnostics
    refine Tracing.Does.foldlM (J := fun before failures es => ∃ ess,
      List.Forall₂ (Took p format Refuse) before ess ∧ es = ess.flatten ∧ failures = diagnosed es)
      ?_ ⟨[], .nil, rfl, rfl⟩ c
    rintro line hline before failures _ c' ⟨ess, htook, rfl, rfl⟩
    refine (does_decodeLine ht _ line c').mono ?_ ?_ nofun
    · rintro failures' es ⟨hes, rfl⟩
      refine ⟨ess ++ [es], List.rel_append htook (.cons hes .nil), by simp, ?_⟩
      rw [diagnosed_append]
    · rintro e es ⟨msg, rfl, hmsg⟩
      refine ⟨msg, rfl, hmsg.imp_right fun hl => ?_⟩
      have hmem := List.fst_mem_of_mem_zipIdx hline
      rwa [hl] at hmem
  refine .bind hloop ?_ ?_ nofun
  · rintro failures _ c' - ⟨ess, htook, rfl, rfl⟩
    split_ifs with hnone
    · exact .pure (by rw [List.append_nil]; exact ⟨⟨ess, htook, rfl⟩, hnone⟩)
    · refine .lift nofun fun e he => .inl ?_
      cases he
      rw [List.append_nil]
      exact ⟨⟨ess, htook, rfl⟩, hnone, rfl⟩
  · exact fun e es he => .inr he

/-! ### Fixtures -/

/-- A terminal that takes whatever is written. -/
def taking : Terminal Unit := ⟨fun _ h => (.ok (), h), fun _ _ h => (.ok (), h)⟩

theorem taking_fails : taking.Fails fun _ => False := ⟨nofun, nofun⟩

/-- The texts of `Json`, and none for people. -/
def plainTexts : Presentation := .plain (fun _ => []) fun _ _ => []

/-- The v1 frame of the tests. -/
def fixture : String :=
  "565301b001020304050607080a0b0c0dfb2e00018bcd0000b26e000f12060007eed00005902075300200080203040506"

/-! ### Runs -/

/-- The frames of an input: what is left of its lines without white space around it. -/
def frames (texts : List String) : List String :=
  (texts.map trim).filter fun frame => !frame.isEmpty

theorem accepted_of_took {texts : List (Except String String)} {k : Nat} {ess : List (List Entry)}
    (h : List.Forall₂ (Took p format Refuse) (texts.zipIdx k) ess)
    (hnone : diagnosed ess.flatten = 0) :
    ∃ read outputs, texts = read.map .ok ∧ (frames read).mapM (accept p format) = .ok outputs ∧
      ess.flatten = outputs.map .output := by
  induction texts generalizing k ess with
  | nil =>
      cases h
      exact ⟨[], [], rfl, rfl, rfl⟩
  | cons text texts ih =>
      rw [List.zipIdx_cons] at h
      obtain _ | ⟨htook, hrest⟩ := h
      rw [List.flatten_cons, diagnosed_append] at hnone
      obtain ⟨hes, hess⟩ := Nat.add_eq_zero_iff.mp hnone
      obtain ⟨read, outputs, rfl, haccept, hflat⟩ := ih hrest hess
      cases htook with
      | @blank text n hblank =>
          refine ⟨text :: read, outputs, rfl, ?_, hflat⟩
          simpa [frames, hblank] using haccept
      | @printed text n out hblank ha =>
          refine ⟨text :: read, out :: outputs, rfl, ?_, ?_⟩
          · have hframes : frames (text :: read) = trim text :: frames read := by
              simp [frames, hblank]
            rw [hframes, List.mapM_cons, ha, haccept]
            rfl
          · rw [List.flatten_cons, hflat]
            rfl
      | rejected => cases hes
      | refused => cases hes

theorem entry_of_took {text : String} {n : Nat} {es : List Entry}
    (h : Took p format (fun _ => False) (.ok text, n) es) :
      es = (entry p format (text, n)).toList := by
  cases h with
  | blank hblank => rw [entry, if_pos hblank]; rfl
  | printed hblank ha => rw [entry, if_neg hblank, ha]; rfl
  | rejected hblank ha => rw [entry, if_neg hblank, ha]; rfl
  | refused hblank ha he => exact he.elim

theorem entries_of_took {texts : List String} {k : Nat} {ess : List (List Entry)}
    (h : List.Forall₂ (Took p format fun _ => False) ((texts.map .ok).zipIdx k) ess) :
    ess.flatten = (texts.zipIdx k).filterMap (entry p format) := by
  induction texts generalizing k ess with
  | nil =>
      cases h
      rfl
  | cons text texts ih =>
      rw [List.map_cons, List.zipIdx_cons] at h
      obtain _ | ⟨htook, hrest⟩ := h
      rw [List.flatten_cons, entry_of_took htook, ih hrest, List.zipIdx_cons, List.filterMap_cons]
      cases entry p format (text, k) <;> rfl

variable (p format t)

/-- The frames that `decode` is given: the one of its argument, or those of the input. -/
inductive Given (frame : Option String) (lines : List (Except String String)) :
    Bool → List String → Prop where
  | argument {encoded : String} (h : frame = some encoded) : Given frame lines false [encoded]
  | input {texts : List String} (h : lines = texts.map .ok) : Given frame lines true (frames texts)

/-- **Success means that nothing was dropped.**  When `decode` succeeds, its frame was given, or
every line of the input was read; each line that is not blank holds a frame; and exactly the texts
of these frames were written, in their order, and no diagnostic.  Whatever the terminal refuses on
the way, that is not reported as a success. -/
theorem decode_success (frame : Option String) (stdin : Bool) (lines : List (Except String String))
    (c : Console H) (h : (decodeCommand t p format frame stdin lines c).result = .ok ()) :
    ∃ given outputs, Given frame lines stdin given ∧ given.mapM (accept p format) = .ok outputs ∧
      (decodeCommand t p format frame stdin lines c).state.log = c.log ++ outputs.map .output := by
  have ht : t.Fails fun _ => True := ⟨fun _ _ _ _ => trivial, fun _ _ _ _ _ => trivial⟩
  cases stdin with
  | true =>
      obtain ⟨es, hlog, ⟨ess, htook, rfl⟩, hnone⟩ := (does_decodeStream p format ht lines c).of_ok h
      obtain ⟨texts, outputs, hread, haccept, hflat⟩ := accepted_of_took htook hnone
      exact ⟨frames texts, outputs, .input hread, haccept, hflat ▸ hlog⟩
  | false =>
      cases frame with
      | none => cases h
      | some encoded =>
          obtain ⟨es, hlog, out, haccept, rfl⟩ := (does_writeFrame ht encoded c).of_ok h
          refine ⟨[encoded], [out], .argument rfl, ?_, hlog⟩
          rw [List.mapM_cons, haccept]
          rfl

theorem decode_success_fixture :
    (∃ given outputs, Given none [.ok "", .ok fixture] true given ∧
      given.mapM (accept plainTexts .jsonLines) = .ok outputs ∧
      (decodeCommand taking plainTexts .jsonLines none true [.ok "", .ok fixture]
        ⟨(), []⟩).state.log =
        [] ++ outputs.map .output) ∧
    ∃ given outputs, Given (some fixture) [] false given ∧
      given.mapM (accept plainTexts .jsonLines) = .ok outputs ∧
      (decodeCommand taking plainTexts .jsonLines (some fixture) false [] ⟨(), []⟩).state.log =
        [] ++ outputs.map .output :=
  ⟨decode_success plainTexts .jsonLines taking none true [.ok "", .ok fixture] ⟨(), []⟩
      (by decide +kernel),
    decode_success plainTexts .jsonLines taking (some fixture) false [] ⟨(), []⟩
      (by decide +kernel)⟩

/-- The terminal takes whatever is written. -/
def Terminal.Reliable : Prop := t.Fails fun _ => False

variable {t} in
/-- What a run over an input that can be read leaves. -/
theorem decodeStream_leaves (ht : t.Reliable) (texts : List String) (c : Console H) :
    ∃ es, es = (texts.zipIdx 1).filterMap (entry p format) ∧
      (decodeStream t p format (texts.map .ok) c).state.log = c.log ++ es ∧
      (decodeStream t p format (texts.map .ok) c).result =
        if diagnosed es = 0 then .ok () else .error (.error (.streamFailures (diagnosed es))) := by
  have hrun := does_decodeStream p format ht (texts.map .ok) c
  cases hresult : (decodeStream t p format (texts.map .ok) c).result with
  | ok u =>
      obtain ⟨es, hlog, ⟨ess, htook, rfl⟩, hnone⟩ := hrun.of_ok hresult
      exact ⟨_, entries_of_took htook, hlog, (if_pos hnone).symm⟩
  | error e =>
      obtain ⟨es, hlog, ⟨⟨ess, htook, rfl⟩, hsome, rfl⟩ | ⟨msg, -, hfail⟩⟩ := hrun.of_error hresult
      · exact ⟨_, entries_of_took htook, hlog, (if_neg hsome).symm⟩
      · obtain hfail | hfail := hfail
        · exact hfail.elim
        · simp at hfail

/-- The report of a packet that is decoded. -/
def decodedReport (payload : List UInt8) :
    (decoded : Outcome ProtocolDecodeError DecodedTelemetry) → decodeAny payload = decoded →
      Option Report
  | .ok frame, h => some (.packet payload frame h none)
  | .error _, _ => none

def packetReport (payload : List UInt8) : Option Report :=
  decodedReport payload (decodeAny payload) rfl

/-- The report of a line that holds a frame. -/
def reportOf (line : String) : Option Report :=
  (parsePayloadHex (trim line)).toOption.bind packetReport

/-- What was printed. -/
def printed (es : List Entry) : List Char := es.flatMap fun
  | .output text => text ++ ['\n']
  | .diagnostic _ _ => []

theorem decodedReport_eq_some {payload : List UInt8}
    {decoded : Outcome ProtocolDecodeError DecodedTelemetry} (h : decodeAny payload = decoded)
    {r : Report} : decodedReport payload decoded h = some r ↔
      ∃ frame, ∃ hd : decodeAny payload = .ok frame, r = .packet payload frame hd none := by
  cases decoded with
  | error e => simp [decodedReport, h]
  | ok frame =>
      refine ⟨fun hr => ⟨frame, h, (Option.some.inj hr).symm⟩, ?_⟩
      rintro ⟨frame', hd, rfl⟩
      cases h.symm.trans hd
      rfl

theorem packetReport_eq_some {payload : List UInt8} {r : Report} : packetReport payload = some r ↔
    ∃ frame, ∃ hd : decodeAny payload = .ok frame, r = .packet payload frame hd none :=
  decodedReport_eq_some rfl

theorem reportOf_eq_some {line : String} {r : Report} : reportOf line = some r ↔
    ∃ payload, parsePayloadHex (trim line) = .ok payload ∧
      ∃ frame, ∃ hd : decodeAny payload = .ok frame, r = .packet payload frame hd none := by
  rw [reportOf, Option.bind_eq_some_iff]
  refine exists_congr fun payload => and_congr ?_ packetReport_eq_some
  cases parsePayloadHex (trim line) <;> simp [Except.toOption]

theorem trim_nonempty_of_parse {line : String} {payload : List UInt8}
    (h : parsePayloadHex (trim line) = .ok payload) : ¬ (trim line).isEmpty := by
  intro hempty
  rw [String.isEmpty_iff.mp hempty] at h
  cases h

/-- The frame of a line that holds one is accepted, and no other line is. -/
theorem accept_eq_ok {line : String} {text : List Char} :
    accept p .jsonLines (trim line) = .ok text ↔
    ∃ r, reportOf line = some r ∧ text = r.chars p := by
  simp only [accept, Outcome.bind_eq_ok, Outcome.mapErr_eq_ok, reportOf_eq_some]
  constructor
  · rintro ⟨payload, hparse, frame, hd, htext⟩
    refine ⟨.packet payload frame hd none, ⟨payload, hparse, frame, hd, rfl⟩, ?_⟩
    exact Except.ok.inj (htext.symm.trans (line_chars p (.packet payload frame hd none)))
  · rintro ⟨r, ⟨payload, hparse, frame, hd, rfl⟩, rfl⟩
    exact ⟨payload, hparse, frame, hd, line_chars p (.packet payload frame hd none)⟩

theorem printed_entry (line : String × Nat) : printed (entry p .jsonLines line).toList =
    (reportOf line.1).toList.flatMap fun r => r.chars p ++ ['\n'] := by
  cases hr : reportOf line.1 with
  | some r =>
      obtain ⟨payload, hparse, -⟩ := reportOf_eq_some.mp hr
      rw [entry, if_neg (trim_nonempty_of_parse hparse), accept_eq_ok p |>.mpr ⟨r, hr, rfl⟩]
      rfl
  | none =>
      have hnot (text : List Char) : accept p .jsonLines (trim line.1) ≠ .ok text := by
        rw [ne_eq, accept_eq_ok, hr]
        simp
      rw [entry]
      split_ifs
      · rfl
      · split
        · next text ha => exact absurd ha (hnot text)
        · rfl
        · rfl

theorem printed_entries (texts : List String) (k : Nat) :
    printed ((texts.zipIdx k).filterMap (entry p .jsonLines)) =
      (texts.filterMap reportOf).flatMap fun r => r.chars p ++ ['\n'] := by
  have hlines : printed ((texts.zipIdx k).filterMap (entry p .jsonLines)) =
      (texts.zipIdx k).flatMap fun line => printed (entry p .jsonLines line).toList := by
    rw [List.filterMap_eq_flatMap_toList, printed, List.flatMap_assoc]
    rfl
  simp only [hlines, printed_entry]
  rw [List.filterMap_eq_flatMap_toList, List.flatMap_assoc]
  conv_rhs => rw [← List.zipIdx_map_fst k texts, List.flatMap_map]

end

end Vesta.Output
