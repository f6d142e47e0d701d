import Cbor.Cli.Verification
import Mathlib.Data.List.Perm.Basic

/-!
# Verified files

What verifying files comes to.  The files are read in order up to the first one that is no list of
records, which is named and nothing else is said.  If there is none, every record is counted once,
as one that holds or as one that fails, and it does not matter how the records are spread over
files.
-/

namespace Cbor

/-! ## Files that are read in order -/

namespace Source

def Holds (stdin : Bytes) (store : Store) (source : Source) (records : List Record) : Prop :=
  ∃ text, source.readText stdin store = .ok text ∧ Record.parseList text = .ok records

/-- The source cannot be read, or is no list of records; the message names it. -/
inductive Refuses (stdin : Bytes) (store : Store) (source : Source) : Text → Prop
  | unreadable {error : StoreError} :
      source.readText stdin store = .error error →
      Refuses stdin store source
        (Text.because ("Failed to read ".toList ++ source.display) error.message)
  | unparsable {text : Text} {fault : JsonFault} :
      source.readText stdin store = .ok text → Record.parseList text = .error fault →
      Refuses stdin store source
        (Text.because ("Failed to parse fixtures in ".toList ++ source.display)
          ("json ".toList ++ fault.category))

end Source

/-- The sources, read one behind the other, are these lists of records and leave the rest of
standard input. -/
inductive HoldAll (store : Store) :
    (stdin : Bytes) → List Source → List (List Record) → (left : Bytes) → Prop
  | nil (stdin : Bytes) : HoldAll store stdin [] [] stdin
  | cons {stdin left : Bytes} {source : Source} {sources : List Source} {records : List Record}
      {lists : List (List Record)} :
      source.Holds stdin store records → HoldAll store (source.leave stdin) sources lists left →
      HoldAll store stdin (source :: sources) (records :: lists) left

variable {stdin left : Bytes} {store : Store} {sources : List Source} {lists : List (List Record)}

/-- Records of files in another order are the records in another order, since only one source
uses up standard input. -/
theorem HoldAll.perm {sources' : List Source} (hperm : sources.Perm sources')
    (h : HoldAll store stdin sources lists left) :
    ∃ lists', HoldAll store stdin sources' lists' left ∧ lists'.Perm lists := by
  induction hperm generalizing stdin lists left with
  | nil => exact ⟨lists, h, .refl lists⟩
  | cons source _ ih =>
      obtain _ | ⟨hrecords, hrest⟩ := h
      obtain ⟨lists', hlists', hperm⟩ := ih hrest
      exact ⟨_, .cons hrecords hlists', hperm.cons _⟩
  | swap first second sources =>
      obtain _ | ⟨hsecond, _ | ⟨hfirst, hrest⟩⟩ := h
      cases first with
      | file path =>
          cases second with
          | file path' => exact ⟨_, .cons hfirst (.cons hsecond hrest), .swap ..⟩
          | stdin => exact ⟨_, .cons hfirst (.cons hsecond hrest), .swap ..⟩
      | stdin =>
          cases second with
          | file path' => exact ⟨_, .cons hfirst (.cons hsecond hrest), .swap ..⟩
          | stdin => exact ⟨_, .cons hsecond (.cons hfirst hrest), .refl _⟩
  | trans _ _ ih ih' =>
      obtain ⟨lists', hlists', hperm⟩ := ih h
      obtain ⟨lists'', hlists'', hperm'⟩ := ih' hlists'
      exact ⟨lists'', hlists'', hperm'.trans hperm⟩

namespace Verification

section

variable {source : Source} {records : List Record} {message : Text}

theorem load_of_holds (h : source.Holds stdin store records) :
    load stdin store source = .ok records := by
  obtain ⟨text, hread, hparse⟩ := h
  simp only [load, hread, hparse]

theorem load_of_refuses (h : source.Refuses stdin store message) :
    load stdin store source = .error message := by
  cases h with
  | unreadable hread => simp only [load, hread]
  | unparsable hread hparse => simp only [load, hread, hparse]

theorem holds_or_refuses (stdin : Bytes) (store : Store) (source : Source) :
    (∃ records, source.Holds stdin store records) ∨
      ∃ message, source.Refuses stdin store message := by
  cases hread : source.readText stdin store with
  | error error => exact .inr ⟨_, .unreadable hread⟩
  | ok text =>
      cases hparse : Record.parseList text with
      | error fault => exact .inr ⟨_, .unparsable hread hparse⟩
      | ok records => exact .inl ⟨records, text, hread, hparse⟩

end

theorem holdAll_or_refuses (stdin : Bytes) (store : Store) (sources : List Source) :
    (∃ lists left, HoldAll store stdin sources lists left) ∨
      ∃ before source after lists left message, sources = before ++ source :: after ∧
        HoldAll store stdin before lists left ∧ source.Refuses left store message := by
  induction sources generalizing stdin with
  | nil => exact .inl ⟨[], stdin, .nil stdin⟩
  | cons source sources ih =>
      rcases holds_or_refuses stdin store source with ⟨records, hrecords⟩ | ⟨message, hmessage⟩
      · rcases ih (source.leave stdin) with
          ⟨lists, left, hlists⟩ | ⟨before, faulty, after, lists, left, message, rfl, hlists, h⟩
        · exact .inl ⟨_, left, .cons hrecords hlists⟩
        · exact .inr ⟨source :: before, faulty, after, _, left, message, rfl,
            .cons hrecords hlists, h⟩
      · exact .inr ⟨[], source, sources, [], stdin, message, rfl, .nil stdin, hmessage⟩

/-! ## Records that are counted -/

/-- Of the records, in order, so many hold, and the others fail with these texts. -/
inductive Checks : List Record → (passed : Nat) → (failed : List Text) → Prop
  | nil : Checks [] 0 []
  | holds {record : Record} {records : List Record} {passed : Nat} {failed : List Text} :
      record.verify = .ok () → Checks records passed failed →
      Checks (record :: records) (passed + 1) failed
  | fails {record : Record} {records : List Record} {passed : Nat} {failed : List Text}
      {mismatch : Mismatch} :
      record.verify = .error mismatch → Checks records passed failed →
      Checks (record :: records) passed
        ((record.description ++ ": ".toList ++ mismatch.message) :: failed)

section

variable {records records' : List Record} {passed passed' : Nat} {failed failed' : List Text}

theorem Checks.append (h : Checks records passed failed) (h' : Checks records' passed' failed') :
    Checks (records ++ records') (passed + passed') (failed ++ failed') := by
  induction h with
  | nil => simpa only [List.nil_append, Nat.zero_add] using h'
  | holds hverify _ ih =>
      rw [Nat.add_right_comm]
      exact .holds hverify ih
  | fails hverify _ ih => exact .fails hverify ih

theorem Checks.unique (h : Checks records passed failed) (h' : Checks records passed' failed') :
    passed' = passed ∧ failed' = failed := by
  induction h generalizing passed' failed' with
  | nil =>
      cases h'
      exact ⟨rfl, rfl⟩
  | holds hverify _ ih =>
      cases h' with
      | holds _ hrest =>
          obtain ⟨rfl, rfl⟩ := ih hrest
          exact ⟨rfl, rfl⟩
      | fails hfails => simp [hverify] at hfails
  | fails hverify _ ih =>
      cases h' with
      | holds hholds => simp [hverify] at hholds
      | fails hfails hrest =>
          obtain ⟨rfl, rfl⟩ := ih hrest
          obtain rfl := Except.error.inj (hverify.symm.trans hfails)
          exact ⟨rfl, rfl⟩

theorem Checks.perm (hperm : records.Perm records') (h : Checks records passed failed) :
    ∃ failed', Checks records' passed failed' ∧ failed'.Perm failed := by
  induction hperm generalizing passed failed with
  | nil => exact ⟨failed, h, .refl _⟩
  | cons record _ ih =>
      cases h with
      | holds hverify hrest =>
          obtain ⟨failed', h', hfailed⟩ := ih hrest
          exact ⟨failed', .holds hverify h', hfailed⟩
      | fails hverify hrest =>
          obtain ⟨failed', h', hfailed⟩ := ih hrest
          exact ⟨_, .fails hverify h', hfailed.cons _⟩
  | swap first second records =>
      cases h with
      | holds hsecond hrest =>
          cases hrest with
          | holds hfirst hrest => exact ⟨_, .holds hfirst (.holds hsecond hrest), .refl _⟩
          | fails hfirst hrest => exact ⟨_, .fails hfirst (.holds hsecond hrest), .refl _⟩
      | fails hsecond hrest =>
          cases hrest with
          | holds hfirst hrest => exact ⟨_, .holds hfirst (.fails hsecond hrest), .refl _⟩
          | fails hfirst hrest => exact ⟨_, .fails hfirst (.fails hsecond hrest), .swap ..⟩
  | trans _ _ ih ih' =>
      obtain ⟨failed', h', hfailed⟩ := ih h
      obtain ⟨failed'', h'', hfailed'⟩ := ih' h'
      exact ⟨failed'', h'', hfailed'.trans hfailed⟩

theorem Checks.passed_add_failed (h : Checks records passed failed) :
    passed + failed.length = records.length := by
  induction h with
  | nil => rfl
  | holds _ _ ih | fails _ _ ih =>
      simp only [List.length_cons]
      omega

theorem Checks.failed_eq_nil_iff (h : Checks records passed failed) :
    failed = [] ↔ ∀ record ∈ records, record.verify = .ok () := by
  induction h with
  | nil => simp
  | holds hverify _ ih => simp [hverify, ih]
  | fails hverify => simp [hverify]

end

/-! ## The summary -/

def Summary.Tells (summary : Summary) (records : List Record) : Prop :=
  Checks records summary.passed summary.failed

namespace Summary

variable {summary : Summary} {records : List Record}

theorem failure?_eq_none_iff : summary.failure? = none ↔ summary.failed = [] := by
  rw [failure?, ← List.length_eq_zero_iff]
  by_cases h : summary.failed.length = 0
  · simp [h]
  · simp [h]

theorem check_append (summary : Summary) (records records' : List Record) :
    summary.check (records ++ records') = (summary.check records).check records' :=
  List.foldl_append

theorem Tells.checkRecord (h : summary.Tells records) (record : Record) :
    (summary.checkRecord record).Tells (records ++ [record]) := by
  unfold Summary.checkRecord
  cases hverify : record.verify with
  | ok =>
      have hone : Checks [record] 1 [] := .holds hverify .nil
      simpa only [Tells, List.append_nil] using h.append hone
  | error mismatch => exact h.append (.fails hverify .nil)

theorem Tells.check (h : summary.Tells records) (records' : List Record) :
    (summary.check records').Tells (records ++ records') := by
  induction records' generalizing summary records with
  | nil =>
      rw [List.append_nil]
      exact h
  | cons record records' ih =>
      rw [List.append_cons]
      exact ih (h.checkRecord record)

end Summary

/-! ## Outcomes -/

/-- The outcome says of every record, once, whether it holds. -/
structure Accounts (before : Store) (records : List Record) (passed : Nat) (failed : List Text)
    (outcome : Outcome) : Prop where
  checks : Checks records passed failed
  total : passed + failed.length = records.length
  stdout : outcome.stdout =
    (failed.flatMap fun text => "FAIL ".toList ++ text ++ ['\n']) ++
      Text.ofNat passed ++ " passed, ".toList ++ Text.ofNat failed.length ++ " failed\n".toList
  store : outcome.store = before
  failure : outcome.failure =
    if failed.length = 0 then none
    else some (Text.ofNat failed.length ++ " fixture record(s) failed".toList)
  succeeds_iff : outcome.failure = none ↔ ∀ record ∈ records, record.verify = .ok ()

/-- Files that hold records extend the summary by them, whatever comes behind these files. -/
theorem checkFiles_append (h : HoldAll store stdin sources lists left) (summary : Summary)
    (events : List Event) (after : List Source) :
    ∃ events', checkFiles store stdin summary events (sources ++ after) =
      checkFiles store left (summary.check lists.flatten) events' after := by
  induction h generalizing summary events with
  | nil stdin => exact ⟨events, rfl⟩
  | @cons stdin left source sources records lists hrecords _ ih =>
      obtain ⟨events', hfiles⟩ :=
        ih (summary.check records) (events ++ checkEvents source records)
      refine ⟨events', ?_⟩
      rw [List.flatten_cons, Summary.check_append, ← hfiles]
      simp only [List.cons_append, checkFiles, load_of_holds hrecords]

theorem run_of_refuses {source : Source} {message : Text}
    (h : HoldAll store stdin sources lists left) (hmessage : source.Refuses left store message)
    (after : List Source) :
    (run (sources ++ source :: after) stdin store).stdout = [] ∧
      (run (sources ++ source :: after) stdin store).store = store ∧
      (run (sources ++ source :: after) stdin store).failure = some message := by
  obtain ⟨events, hfiles⟩ := checkFiles_append h {} [] (source :: after)
  rw [run, hfiles]
  simp only [checkFiles, load_of_refuses hmessage]
  exact ⟨rfl, rfl, rfl⟩

theorem run_of_holdAll (h : HoldAll store stdin sources lists left) :
    Accounts store lists.flatten (({} : Summary).check lists.flatten).passed
      (({} : Summary).check lists.flatten).failed (run sources stdin store) := by
  obtain ⟨events, hfiles⟩ := checkFiles_append h {} [] []
  have hnone : Summary.Tells {} [] := Checks.nil
  have hchecks : Checks lists.flatten _ _ := hnone.check lists.flatten
  rw [List.append_nil] at hfiles
  rw [run, hfiles]
  exact ⟨hchecks, hchecks.passed_add_failed, rfl, rfl, rfl,
    Summary.failure?_eq_none_iff.trans hchecks.failed_eq_nil_iff⟩

/--
Verifying files.  Either all of them are lists of records, or one is the first that is not: it is
named and nothing is printed.  All records of the files are accounted for, each one once; so files
with the same records in the same order have the same outcome, and with the files in another order
as many records hold and as many fail.
-/
theorem run_accounts (sources : List Source) (stdin : Bytes) (store : Store) :
    ((∃ lists left, HoldAll store stdin sources lists left) ∨
      ∃ before source after lists left message, sources = before ++ source :: after ∧
        HoldAll store stdin before lists left ∧ source.Refuses left store message) ∧
    (∀ before source after lists left message, sources = before ++ source :: after →
      HoldAll store stdin before lists left → source.Refuses left store message →
      (run sources stdin store).stdout = [] ∧ (run sources stdin store).store = store ∧
        (run sources stdin store).failure = some message) ∧
    ∀ lists left, HoldAll store stdin sources lists left →
      (∃ passed failed,
        Accounts store lists.flatten passed failed (run sources stdin store)) ∧
      (∀ sources' stdin' store' lists' left', HoldAll store' stdin' sources' lists' left' →
        lists'.flatten = lists.flatten →
        (run sources' stdin' store').stdout = (run sources stdin store).stdout ∧
          (run sources' stdin' store').failure = (run sources stdin store).failure) ∧
      ∀ sources', sources.Perm sources' → ∃ lists' passed failed failed',
        HoldAll store stdin sources' lists' left ∧ lists'.Perm lists ∧ failed'.Perm failed ∧
        Accounts store lists.flatten passed failed (run sources stdin store) ∧
        Accounts store lists'.flatten passed failed' (run sources' stdin store) := by
  refine ⟨holdAll_or_refuses stdin store sources, ?_, fun lists left h => ?_⟩
  · rintro before source after lists left message rfl hlists hmessage
    exact run_of_refuses hlists hmessage after
  · have haccounts := run_of_holdAll h
    refine ⟨⟨_, _, haccounts⟩, ?_, fun sources' hperm => ?_⟩
    · intro sources' stdin' store' lists' left' h' hsame
      have haccounts' := run_of_holdAll h'
      rw [hsame] at haccounts'
      exact ⟨haccounts'.stdout.trans haccounts.stdout.symm,
        haccounts'.failure.trans haccounts.failure.symm⟩
    · obtain ⟨lists', h', hlists⟩ := h.perm hperm
      have haccounts' := run_of_holdAll h'
      obtain ⟨failed', hchecks', hfailed⟩ := haccounts.checks.perm hlists.flatten.symm
      obtain ⟨hpassed, rfl⟩ := hchecks'.unique haccounts'.checks
      rw [hpassed] at haccounts'
      exact ⟨lists', _, _, _, h', hlists, hfailed, haccounts, haccounts'⟩

/-- Two files with records that hold and records that fail, of either kind, a file with the records
of both, and a file that is cut. -/
theorem run_accounts_two_files :
    let cut : Record := .failure "cut".toList "18".toList
    let null : Record := .failure "null".toList "f6".toList
    let one : Record := .success "one".toList "01".toList (.unsigned 1)
    let two : Record := .success "two".toList "01".toList (.unsigned 2)
    let content (records : List Record) : Bytes :=
      Utf8.encode (Json.array (records.map Record.toJson)).compact
    let store : Store := { files := [(["a".toList], content [cut, null]),
      (["b".toList], content [one, two]), (["c".toList], content [cut, null, one, two]),
      (["d".toList], [0x5B])] }
    let a : Source := .file "a".toList
    let b : Source := .file "b".toList
    let c : Source := .file "c".toList
    let d : Source := .file "d".toList
    HoldAll store [] [a, b] [[cut, null], [one, two]] [] ∧
      HoldAll store [] [c] [[cut, null, one, two]] [] ∧
      d.Refuses [] store "Failed to parse fixtures in d: json eof".toList ∧
      (∃ passed failed, Accounts store [cut, null, one, two] passed failed (run [a, b] [] store)) ∧
      (run [a, b] [] store).stdout =
        ("FAIL null: Expected a decode error, got null\n" ++
          "FAIL two: Expected Uint(2), got Uint(1)\n" ++ "2 passed, 2 failed\n").toList ∧
      (run [c] [] store).stdout = (run [a, b] [] store).stdout ∧
      [a, b].Perm [b, a] ∧
      (∃ lists passed failed, List.Perm lists [[cut, null], [one, two]] ∧
        Accounts store lists.flatten passed failed (run [b, a] [] store)) ∧
      (run [a, d, b] [] store).stdout = [] ∧
      (run [a, d, b] [] store).failure =
        some "Failed to parse fixtures in d: json eof".toList := by
  intro cut null one two content store a b c d
  have ha : a.Holds [] store [cut, null] := ⟨_, rfl, by decide⟩
  have hb : b.Holds [] store [one, two] := ⟨_, rfl, by decide⟩
  have hc : c.Holds [] store [cut, null, one, two] := ⟨_, rfl, by decide⟩
  have hread : d.readText [] store = .ok ['['] := rfl
  have hd : d.Refuses [] store "Failed to parse fixtures in d: json eof".toList :=
    .unparsable hread (show Record.parseList ['['] = .error .early by decide)
  have hab : HoldAll store [] [a, b] [[cut, null], [one, two]] [] := .cons ha (.cons hb (.nil []))
  have hjoined : HoldAll store [] [c] [[cut, null, one, two]] [] := .cons hc (.nil [])
  have hperm : [a, b].Perm [b, a] := .swap ..
  obtain ⟨-, -, hfiles⟩ := run_accounts [a, b] [] store
  obtain ⟨haccounts, hsame, hreordered⟩ := hfiles _ _ hab
  obtain ⟨lists, passed, failed, failed', -, hlists, -, -, haccounts'⟩ := hreordered _ hperm
  obtain ⟨-, hfaulty, -⟩ := run_accounts [a, d, b] [] store
  obtain ⟨hstdout, -, hfailure⟩ := hfaulty [a] d [b] _ _ _ rfl (.cons ha (.nil [])) hd
  exact ⟨hab, hjoined, hd, haccounts, by decide, (hsame _ _ _ _ _ hjoined rfl).1, hperm,
    ⟨lists, passed, failed', hlists, haccounts'⟩, hstdout, hfailure⟩

end Verification

end Cbor
