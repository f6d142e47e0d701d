import Cbor.Proofs.SpacedHex
import Cbor.Proofs.Tiling

/-!
# Hexadecimal reports

Items are reported in hexadecimal by their bytes.  The report on a whole sequence has all of its
data, and can be inspected in place of them.
-/

namespace Cbor

/-! ## Reading a report -/

theorem Tiles.flatMap_bytes {options : Options} {offset : Nat} {steps : List Step} {data : Bytes}
    (h : Tiles options offset steps data) : steps.flatMap Step.bytes = data := by
  induction h with
  | nil => rfl
  | cons _ _ _ ih => rw [List.flatMap_cons, ih]

/-- The target has got a text: it is what was printed, or the content that a file was written
with. -/
def Target.Receives (before : Store) (outcome : Outcome) (text : Text) : Target → Prop
  | .stdout => outcome.stdout = text ∧ outcome.store = before
  | .file path => outcome.stdout = [] ∧ before.write path (Utf8.encode text) = .ok outcome.store

def Target.ending : Target → Text
  | .stdout => ['\n']
  | .file _ => []

namespace Source

variable {source : Source} {stdin : Bytes} {store : Store}

theorem readData_of_read {data : Bytes} (h : source.read stdin store = .ok data) :
    source.readData false stdin store = .ok data :=
  mapError_eq_ok_iff.mpr h

theorem readText_eq_ok_iff {text : Text} :
    source.readText stdin store = .ok text ↔ source.read stdin store = .ok (Utf8.encode text) := by
  cases hread : source.read stdin store with
  | error error => simp [readText, hread, bind, Except.bind]
  | ok bytes =>
      have htext : bytes = Utf8.encode text ↔ Utf8.decode? bytes = some text :=
        eq_comm.trans Utf8.decode?_eq_some_iff.symm
      rw [Except.ok.injEq, htext]
      cases hdecode : Utf8.decode? bytes <;> simp [readText, hread, hdecode, bind, Except.bind]

theorem readData_of_read_encode {text : Text} {data : Bytes}
    (h : source.read stdin store = .ok (Utf8.encode text))
    (htext : Hex.decodeSpaced text = .ok data) :
    source.readData true stdin store = .ok data := by
  have hread := readText_eq_ok_iff.mpr h
  simp only [readData, if_pos, hread, htext, Except.mapError, bind, Except.bind]

end Source

namespace Inspection

variable {options : Options} {data : Bytes} {steps : List Step}

theorem ne_nil_of_splitItems (h : splitItems options true data = .ok steps) : data ≠ [] := by
  rintro rfl
  rw [splitItems_eq_first rfl] at h
  cases hdecode : decodeWith options [] with
  | error error => simp [hdecode] at h
  | ok found =>
      obtain ⟨hpos, hle⟩ := length_pos_of_decodeWith hdecode
      exact absurd hle (Nat.not_le_of_lt hpos)

theorem tiles_of_splitItems (h : splitItems options true data = .ok steps) :
    Tiles options 0 steps data :=
  (splitItems_eq_ok_iff_tiles (ne_nil_of_splitItems h)).mp h

theorem withoutBlanks_report (steps : List Step) :
    Text.withoutBlanks (report .hex steps) = Hex.encode (steps.flatMap Step.bytes) := by
  rw [report, Text.withoutBlanks_join rfl, List.flatMap_map, Hex.encode, List.flatMap_assoc]
  simp only [Format.write, Hex.withoutBlanks_encode]
  rfl

theorem exists_steps_of_run {inspection : Inspection} {stdin : Bytes} {store : Store}
    (h : (inspection.run stdin store).failure = none) :
    ∃ data steps, inspection.source.readData inspection.hex stdin store = .ok data ∧
      splitItems inspection.options inspection.sequence data = .ok steps ∧
      inspection.run stdin store = deliver inspection.target (report inspection.format steps) store
        (.inputRead data.length :: trailingEvents data steps) := by
  rw [run] at h
  cases hread : inspection.source.readData inspection.hex stdin store with
  | error message => simp [hread, Outcome.failed] at h
  | ok data =>
      simp only [hread, inspectData] at h
      cases hsplit : splitItems inspection.options inspection.sequence data with
      | error fault => simp [hsplit, Outcome.failed] at h
      | ok steps =>
          refine ⟨data, steps, rfl, hsplit, ?_⟩
          simp only [run, hread, inspectData, hsplit]

theorem receives_deliver_ending {target : Target} {text : Text} {store : Store}
    {events : List Event} (h : (deliver target text store events).failure = none) :
    target.Receives store (deliver target text store events) (text ++ target.ending) := by
  cases target with
  | stdout => exact ⟨rfl, rfl⟩
  | file path =>
      simp only [deliver] at h ⊢
      cases hwrite : store.write path (Utf8.encode text) with
      | error error => simp [hwrite, Outcome.failed] at h
      | ok after =>
          rw [Target.ending, List.append_nil]
          exact ⟨rfl, hwrite⟩

theorem receives_deliver {target : Target} {text : Text} {store : Store} {events : List Event}
    (h : (deliver target text store events).failure = none) :
    ∃ blanks, Text.withoutBlanks blanks = [] ∧
      target.Receives store (deliver target text store events) (text ++ blanks) := by
  refine ⟨target.ending, ?_, receives_deliver_ending h⟩
  cases target <;> rfl

/--
The hexadecimal report on a sequence, as its target gets it, is read as the data that it reports
on.  So an inspection of the report as a sequence has the same outcome as one of the data, in every
format and with every target.
-/
theorem run_hex_report (inspection : Inspection) (stdin : Bytes) (store : Store)
    (hformat : inspection.format = .hex) (hsequence : inspection.sequence = true)
    (hrun : (inspection.run stdin store).failure = none) :
    ∃ data text, inspection.source.readData inspection.hex stdin store = .ok data ∧
      inspection.target.Receives store (inspection.run stdin store) text ∧
      Hex.decodeSpaced text = .ok data ∧
      ∀ format target source stdin' source' stdin'' store',
        source.read stdin' store' = .ok (Utf8.encode text) →
        source'.read stdin'' store' = .ok data →
        Inspection.run { inspection with format, target, source, hex := true } stdin' store' =
          Inspection.run { inspection with format, target, source := source', hex := false }
            stdin'' store' := by
  obtain ⟨data, steps, hread, hsplit, heq⟩ := exists_steps_of_run hrun
  rw [hsequence] at hsplit
  rw [hformat] at heq
  rw [heq] at hrun ⊢
  obtain ⟨blanks, hblanks, hreceives⟩ := receives_deliver hrun
  have hdecode : Hex.decodeSpaced (report .hex steps ++ blanks) = .ok data := by
    apply Hex.decodeSpaced_of_withoutBlanks
    rw [Text.withoutBlanks_append, hblanks, List.append_nil, withoutBlanks_report,
      (tiles_of_splitItems hsplit).flatMap_bytes]
  refine ⟨data, _, hread, hreceives, hdecode, ?_⟩
  intro format target source stdin' source' stdin'' store' htext hdata
  simp only [run, Source.readData_of_read_encode htext hdecode, Source.readData_of_read hdata]
  rfl

/-- Two items, shown from a file to standard output; the report comes back from standard input. -/
theorem run_hex_report_two_items :
    let data : Bytes := [0x01, 0x81, 0xF6]
    let store : Store := { files := [(["a".toList], data)] }
    let shown : Inspection := { format := .hex, sequence := true, source := .file "a".toList }
    let text : Text := "01\n81f6\n".toList
    shown.format = .hex ∧ shown.sequence = true ∧ (shown.run [] store).failure = none ∧
      (shown.run [] store).stdout = text ∧ Hex.decodeSpaced text = .ok data ∧
      Inspection.run { shown with format := .json, source := .stdin, hex := true }
          (Utf8.encode text) store =
        Inspection.run { shown with format := .json } [] store := by
  intro data store shown text
  have hsource : shown.source.read [] store = .ok data := rfl
  have hrun : (shown.run [] store).failure = none := by decide
  have hstdout : (shown.run [] store).stdout = text := by decide
  obtain ⟨data', text', hread, ⟨htext, -⟩, hdecode, hagain⟩ :=
    run_hex_report shown [] store rfl rfl hrun
  cases (Source.readData_of_read hsource).symm.trans hread
  cases htext.symm.trans hstdout
  exact ⟨rfl, rfl, hrun, hstdout, hdecode, hagain .json .stdout .stdin _ _ [] store rfl hsource⟩

end Inspection

end Cbor
