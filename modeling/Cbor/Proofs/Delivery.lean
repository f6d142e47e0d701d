import Cbor.Proofs.DiagnosticLines
import Mathlib.Data.List.DropRight

/-!
# Inspections that deliver all or nothing

An inspection reads and decodes everything that it is to show before it writes.  So it leaves
standard output and the files alone if the source is at fault or an item is, wherever that stands;
otherwise the target gets the whole text, and nothing else changes.
-/

namespace Cbor

/-! ## Files that are written -/

namespace Path

theorem parts_ne_nil (text : Text) : parts text ≠ [] := by
  rw [parts]
  induction text with
  | nil => simp
  | cons c text ih =>
      rw [List.foldr_cons]
      split
      · contradiction
      · split <;> simp

end Path

namespace Store

variable {store after : Store} {path here next : Path} {name : Text} {content : Bytes}

/-- The name leads to a file with the content; wherever it does not lead, nothing is changed. -/
structure Replaces (before after : Store) (name : Text) (content : Bytes) : Prop where
  read : after.read name = .ok content
  elsewhere : ∀ path, after.resolve name ≠ .ok path → after.lookup path = before.lookup path

theorem lookup_put_self (store : Store) (path : Path) (content : Bytes) :
    (store.put path content).lookup path = some (.file content) := by
  simp [lookup, put]

theorem lookup_put_of_ne (store : Store) {path other : Path} (h : other ≠ path)
    (content : Bytes) : (store.put path content).lookup other = store.lookup other := by
  have hother : ∀ file : Path × Bytes,
      decide ((!(file.1 == path)) = true ∧ (file.1 == other) = true) = (file.1 == other) := by
    intro file
    by_cases hfile : file.1 = other <;> simp [hfile, h]
  have hfind : (store.put path content).files.find? (fun file => file.1 == other) =
      store.files.find? (fun file => file.1 == other) := by
    rw [put, List.find?_cons_of_neg (by simpa using h.symm), List.find?_filter]
    simp only [hother]
  simp only [lookup, hfind]
  rfl

theorem lookup_of_enter (h : store.enter here name = .ok next) :
    store.lookup here = some .directory := by
  rw [enter] at h
  split at h
  · contradiction
  · contradiction
  · assumption

theorem enter_put (hpath : store.lookup path ≠ some .directory)
    (h : store.enter here name = .ok next) (content : Bytes) :
    (store.put path content).enter here name = .ok next := by
  have hhere := lookup_of_enter h
  have hne : here ≠ path := by
    rintro rfl
    exact hpath hhere
  rw [enter, lookup_put_of_ne store hne, ← h, enter]

theorem foldlM_enter_put (hpath : store.lookup path ≠ some .directory) {names : List Text}
    (h : names.foldlM store.enter here = .ok next) (content : Bytes) :
    names.foldlM (store.put path content).enter here = .ok next := by
  induction names generalizing here with
  | nil => exact h
  | cons name names ih =>
      rw [List.foldlM_cons] at h ⊢
      obtain ⟨there, hname, hnames⟩ := exists_of_bind_eq_ok h
      rw [enter_put hpath hname, ok_bind, ih hnames]

theorem resolve_put (hpath : store.lookup path ≠ some .directory)
    (h : store.resolve name = .ok next) (content : Bytes) :
    (store.put path content).resolve name = .ok next := by
  obtain ⟨_, hname, hnames⟩ := exists_of_bind_eq_ok h
  rw [resolve, hname, ok_bind]
  exact foldlM_enter_put hpath hnames content

theorem snd_route_ne_nil (name : Text) : (route name).2 ≠ [] := by
  unfold route
  split <;> exact Path.parts_ne_nil _

theorem foldlM_enter_of_dropLast {names : List Text} (hnames : names ≠ [])
    (h : names.dropLast.foldlM store.enter here = .ok next)
    (hlast : store.enter next (names.getLastD []) = .ok path) :
    names.foldlM store.enter here = .ok path := by
  obtain rfl | ⟨init, last, rfl⟩ := List.eq_nil_or_concat' names
  · contradiction
  · rw [List.dropLast_concat] at h
    rw [List.getLastD_concat] at hlast
    rw [List.foldlM_append, h, ok_bind, List.foldlM_cons, hlast]
    rfl

theorem exists_put_of_write (h : store.write name content = .ok after) :
    ∃ path, store.resolve name = .ok path ∧ store.lookup path ≠ some .directory ∧
      after = store.put path content ∧
      ∀ content', store.write name content' = .ok (store.put path content') := by
  obtain ⟨_, hname, hbody⟩ := exists_of_bind_eq_ok h
  obtain ⟨start, names, hroute⟩ : ∃ start names, route name = (start, names) := ⟨_, _, rfl⟩
  have hnames : names ≠ [] := by simpa only [hroute] using snd_route_ne_nil name
  simp only [hroute] at hbody
  obtain ⟨here, hdirectory, hbody⟩ := exists_of_bind_eq_ok hbody
  split at hbody
  · obtain ⟨_, _, hslash⟩ := exists_of_bind_eq_ok hbody
    contradiction
  · next hslash =>
      obtain ⟨path, henter, hbody⟩ := exists_of_bind_eq_ok hbody
      have hpath : store.lookup path ≠ some .directory := by
        intro hlookup
        rw [hlookup] at hbody
        contradiction
      have hput : ∀ content', store.write name content' = .ok (store.put path content') := by
        intro content'
        simp only [write, hname, ok_bind, hroute, hdirectory, if_neg hslash, henter]
      -- no slash at the end: the names up to the directory are all but the last
      have hstripped : names.rdropWhile List.isEmpty = names :=
        (List.rdropWhile_prefix _ names).eq_of_length_le (Nat.le_of_not_lt hslash)
      rw [List.rdropWhile] at hstripped
      rw [hstripped] at hdirectory
      refine ⟨path, ?_, hpath, Except.ok.inj (h.symm.trans (hput content)), hput⟩
      rw [resolve, hname, ok_bind, hroute]
      exact foldlM_enter_of_dropLast hnames hdirectory henter

theorem replaces_of_write (h : store.write name content = .ok after) :
    store.Replaces after name content := by
  obtain ⟨path, hresolve, hpath, rfl, -⟩ := exists_put_of_write h
  have hafter := resolve_put hpath hresolve content
  constructor
  · simp only [read, hafter, ok_bind, lookup_put_self]
  · intro other hother
    apply lookup_put_of_ne
    rintro rfl
    exact hother hafter

end Store

/-! ## Data that is supplied -/

namespace Source

variable {stdin : Bytes} {store : Store} {source : Source} {hex : Bool} {data : Bytes}

/-- The source can be read and holds the data as it is or, in hexadecimal, a text that spells it
when the white space is left out. -/
inductive Supplies (stdin : Bytes) (store : Store) (source : Source) : (hex : Bool) → Bytes → Prop
  | plain {data : Bytes} :
      source.read stdin store = .ok data → Supplies stdin store source false data
  | spelled {text : Text} {data : Bytes} :
      source.read stdin store = .ok (Utf8.encode text) →
      Hex.Spells (text.filter (· ∉ Text.whiteSpace)) data → Supplies stdin store source true data

/-- The source cannot be read or, where hexadecimal is expected, it is no text or one that spells
no data. -/
inductive Faulty (stdin : Bytes) (store : Store) (source : Source) : (hex : Bool) → Prop
  | unreadable {hex : Bool} {error : StoreError} :
      source.read stdin store = .error error → Faulty stdin store source hex
  | noText {bytes : Bytes} :
      source.read stdin store = .ok bytes → ¬Utf8.WellFormed bytes → Faulty stdin store source true
  | noDigits {text : Text} :
      source.read stdin store = .ok (Utf8.encode text) →
      (∀ data, ¬Hex.Spells (text.filter (· ∉ Text.whiteSpace)) data) →
      Faulty stdin store source true

theorem readData_eq_ok_iff :
    source.readData hex stdin store = .ok data ↔ source.Supplies stdin store hex data := by
  constructor
  · intro h
    cases hex with
    | false => exact .plain (mapError_eq_ok_iff.mp h)
    | true =>
        obtain ⟨text, htext, hdigits⟩ := exists_of_bind_eq_ok h
        have hread := readText_eq_ok_iff.mp (mapError_eq_ok_iff.mp htext)
        exact .spelled hread (Hex.decodeSpaced_eq_ok_iff.mp (mapError_eq_ok_iff.mp hdigits))
  · rintro (hread | ⟨hread, hspells⟩)
    · exact readData_of_read hread
    · exact readData_of_read_encode hread (Hex.decodeSpaced_eq_ok_iff.mpr hspells)

theorem Faulty.not_supplies (h : source.Faulty stdin store hex) :
    ¬source.Supplies stdin store hex data := by
  intro hdata
  cases h with
  | unreadable hread =>
      cases hdata with
      | plain hread' | spelled hread' _ => exact nomatch hread.symm.trans hread'
  | noText hread htext =>
      cases hdata with
      | spelled hread' _ => exact htext ⟨_, Except.ok.inj (hread'.symm.trans hread)⟩
  | noDigits hread hdigits =>
      cases hdata with
      | spelled hread' hspells =>
          cases Utf8.encode_injective (Except.ok.inj (hread.symm.trans hread'))
          exact hdigits _ hspells

theorem Faulty.readData_eq (h : source.Faulty stdin store hex) :
    ∃ message, source.readData hex stdin store = .error message := by
  cases hdata : source.readData hex stdin store with
  | error message => exact ⟨message, rfl⟩
  | ok data => exact absurd (readData_eq_ok_iff.mp hdata) h.not_supplies

theorem faulty_or_supplies (stdin : Bytes) (store : Store) (source : Source) (hex : Bool) :
    source.Faulty stdin store hex ∨ ∃ data, source.Supplies stdin store hex data := by
  cases hread : source.read stdin store with
  | error error => exact .inl (.unreadable hread)
  | ok bytes =>
      cases hex with
      | false => exact .inr ⟨bytes, .plain hread⟩
      | true =>
          by_cases htext : Utf8.WellFormed bytes
          · obtain ⟨text, rfl⟩ := htext
            by_cases hspells : ∃ data, Hex.Spells (text.filter (· ∉ Text.whiteSpace)) data
            · obtain ⟨data, hspells⟩ := hspells
              exact .inr ⟨data, .spelled hread hspells⟩
            · exact .inl (.noDigits hread (not_exists.mp hspells))
          · exact .inl (.noText hread htext)

end Source

/-! ## Outcomes -/

/-- Nothing is printed, the files are as they were, and there is a failure. -/
structure Outcome.LeavesAlone (before : Store) (outcome : Outcome) : Prop where
  stdout : outcome.stdout = []
  store : outcome.store = before
  failure : outcome.failure ≠ none

namespace Target

/-- The target can be written: standard output always, a file if some content can. -/
def Writable (store : Store) : Target → Prop
  | .stdout => True
  | .file name => ∃ content after, store.write name content = .ok after

/-- The text, all of it, is in the target and nowhere else: behind it standard output has a line
break, and a file nothing. -/
def Holds (before : Store) (outcome : Outcome) (text : Text) : Target → Prop
  | .stdout => outcome.stdout = text ++ ['\n'] ∧ outcome.store = before
  | .file name => outcome.stdout = [] ∧ before.Replaces outcome.store name (Utf8.encode text)

end Target

namespace Inspection

theorem leavesAlone_failed (store : Store) (events : List Event) (message : Text) :
    (Outcome.failed store events message).LeavesAlone store :=
  ⟨rfl, rfl, Option.some_ne_none message⟩

theorem holds_deliver {target : Target} {store : Store} (h : target.Writable store) (text : Text)
    (events : List Event) :
    (deliver target text store events).failure = none ∧
      target.Holds store (deliver target text store events) text := by
  cases target with
  | stdout => exact ⟨rfl, rfl, rfl⟩
  | file name =>
      obtain ⟨content, after, hwrite⟩ := h
      obtain ⟨path, -, -, -, hput⟩ := Store.exists_put_of_write hwrite
      have hdeliver : deliver (.file name) text store events =
          { store := store.put path (Utf8.encode text), events } := by
        simp only [deliver, hput]
      rw [hdeliver]
      exact ⟨rfl, rfl, Store.replaces_of_write (hput _)⟩

theorem leavesAlone_deliver {target : Target} {store : Store} (h : ¬target.Writable store)
    (text : Text) (events : List Event) :
    (deliver target text store events).LeavesAlone store := by
  cases target with
  | stdout => exact absurd trivial h
  | file name =>
      cases hwrite : store.write name (Utf8.encode text) with
      | ok after => exact absurd ⟨_, after, hwrite⟩ h
      | error error =>
          simp only [deliver, hwrite]
          exact leavesAlone_failed ..

/-! ## Items that are shown -/

variable {options : Options} {sequence : Bool} {data : Bytes} {steps : List Step}

/-- The steps are what is shown of the data: the first item, whatever follows it, or all the items
of the sequence that the data is, of which there is at least one. -/
inductive Shows (options : Options) : (sequence : Bool) → List Step → Bytes → Prop
  | first {step : Step} {taken : Bytes} (rest : Bytes) :
      Tiles options 0 [step] taken → Shows options false [step] (taken ++ rest)
  | all {steps : List Step} {data : Bytes} :
      steps ≠ [] → Tiles options 0 steps data → Shows options true steps data

/-- An item that has to be shown does not decode: the first one or, in a sequence, one behind any
number of others. -/
inductive Breaks (options : Options) : (sequence : Bool) → Bytes → Prop
  | first {sequence : Bool} {data : Bytes} {error : DecodeError} :
      decodeWith options data = .error error → Breaks options sequence data
  | later {steps : List Step} {taken rest : Bytes} {error : DecodeError} :
      Tiles options 0 steps taken → rest ≠ [] → decodeWith options rest = .error error →
      Breaks options true (taken ++ rest)

theorem Shows.splitItems_eq (h : Shows options sequence steps data) :
    splitItems options sequence data = .ok steps := by
  cases h with
  | first rest htiles => exact splitItems_of_tiles htiles rest
  | all hsteps htiles =>
      exact (splitItems_eq_ok_iff_tiles (mt htiles.eq_nil_iff.mpr hsteps)).mpr htiles

theorem Breaks.splitItems_eq (h : Breaks options sequence data) :
    ∃ fault, splitItems options sequence data = .error fault := by
  cases h with
  | later htiles hrest herror => exact ⟨_, splitItems_of_tiles_of_error htiles hrest herror⟩
  | @first _ _ error herror =>
      cases hmore : sequence && !data.isEmpty with
      | false =>
          refine ⟨(0, error), ?_⟩
          rw [splitItems_eq_first hmore, herror]
      | true =>
          obtain ⟨rfl, hdata⟩ := Bool.and_eq_true_iff.mp hmore
          have hne : data ≠ [] := by simpa using hdata
          exact ⟨_, splitItems_of_tiles_of_error (.nil 0) hne herror⟩

theorem breaks_or_shows (options : Options) (sequence : Bool) (data : Bytes) :
    Breaks options sequence data ∨ ∃ steps, Shows options sequence steps data := by
  cases hdecode : decodeWith options data with
  | error error => exact .inl (.first hdecode)
  | ok found =>
      obtain ⟨item, length⟩ := found
      cases sequence with
      | false =>
          have hshows := Shows.first (data.drop length) (tiles_singleton hdecode)
          rw [List.take_append_drop] at hshows
          exact .inr ⟨_, hshows⟩
      | true =>
          obtain ⟨hpos, hle⟩ := length_pos_of_decodeWith hdecode
          have hdata : data ≠ [] := List.length_pos_iff.mp (Nat.lt_of_lt_of_le hpos hle)
          obtain ⟨steps, fault, hends⟩ := Walk.exists_ends options 0 data
          cases hends with
          | whole htiles => exact .inr ⟨steps, .all (mt htiles.eq_nil_iff.mp hdata) htiles⟩
          | fault hsplit htiles hrest herror =>
              subst hsplit
              exact .inl (.later htiles hrest herror)

/-! ## Inspections -/

inductive Refuses (inspection : Inspection) (stdin : Bytes) (store : Store) : Prop
  | source : inspection.source.Faulty stdin store inspection.hex → Refuses inspection stdin store
  | item {data : Bytes} :
      inspection.source.Supplies stdin store inspection.hex data →
      Breaks inspection.options inspection.sequence data → Refuses inspection stdin store

variable {inspection : Inspection} {stdin : Bytes} {store : Store}

theorem leavesAlone_of_refuses (h : inspection.Refuses stdin store) :
    (inspection.run stdin store).LeavesAlone store := by
  cases h with
  | source hfaulty =>
      obtain ⟨message, hread⟩ := hfaulty.readData_eq
      simp only [run, hread]
      exact leavesAlone_failed ..
  | item hsupplies hbreaks =>
      obtain ⟨⟨offset, error⟩, hsplit⟩ := hbreaks.splitItems_eq
      simp only [run, Source.readData_eq_ok_iff.mpr hsupplies, inspectData, hsplit]
      exact leavesAlone_failed ..

theorem run_eq_deliver (hsupplies : inspection.source.Supplies stdin store inspection.hex data)
    (hshows : Shows inspection.options inspection.sequence steps data) :
    inspection.run stdin store = deliver inspection.target (report inspection.format steps) store
      (.inputRead data.length :: trailingEvents data steps) := by
  simp only [run, Source.readData_eq_ok_iff.mpr hsupplies, inspectData, hshows.splitItems_eq]

/--
An inspection delivers all or nothing.  If its source cannot be read or holds no hexadecimal where
that is expected, or if any item that has to be shown does not decode, wherever in the sequence,
then nothing is printed and no file is touched.  Otherwise the texts of all items, a line break
between each two, are in the target and nowhere else, unless the target cannot be written, and then
again nothing is touched.
-/
theorem run_delivers_all_or_nothing (inspection : Inspection) (stdin : Bytes) (store : Store) :
    (inspection.Refuses stdin store → (inspection.run stdin store).LeavesAlone store) ∧
    (¬inspection.Refuses stdin store →
      ∃ data steps, inspection.source.Supplies stdin store inspection.hex data ∧
        Shows inspection.options inspection.sequence steps data ∧
        (inspection.target.Writable store →
          (inspection.run stdin store).failure = none ∧
            inspection.target.Holds store (inspection.run stdin store)
              (['\n'].intercalate (steps.map inspection.format.write))) ∧
        (¬inspection.target.Writable store →
          (inspection.run stdin store).LeavesAlone store)) := by
  refine ⟨leavesAlone_of_refuses, fun hrefuses => ?_⟩
  obtain hfaulty | ⟨data, hsupplies⟩ :=
    Source.faulty_or_supplies stdin store inspection.source inspection.hex
  · exact absurd (.source hfaulty) hrefuses
  obtain hbreaks | ⟨steps, hshows⟩ :=
    breaks_or_shows inspection.options inspection.sequence data
  · exact absurd (.item hsupplies hbreaks) hrefuses
  refine ⟨data, steps, hsupplies, hshows, fun hwritable => ?_, fun hwritable => ?_⟩
  · rw [run_eq_deliver hsupplies hshows, ← Text.join_eq_intercalate]
    exact holds_deliver hwritable ..
  · rw [run_eq_deliver hsupplies hshows]
    exact leavesAlone_deliver hwritable ..

/-- Two sequences, shown to a file that is there: one that breaks off in its second item, which
leaves the file alone, and a whole one, which takes its place in every format. -/
theorem run_delivers_all_or_nothing_existing_file :
    let whole : Bytes := [0x01, 0x81, 0xF6]
    let store : Store := { files := [(["a".toList], whole), (["b".toList], [0x01, 0x18]),
      (["o".toList], [0x6F])] }
    let shown (name : Text) (format : Format) : Inspection :=
      { format := format, sequence := true, target := .file "o".toList, source := .file name }
    let text : Format → Text
      | .diagnostic => "1\n[null]".toList
      | .json => "1\n[\n  null\n]".toList
      | .hex => "01\n81f6".toList
    store.read "o".toList = .ok [0x6F] ∧
      (∀ format, (shown "b".toList format).Refuses [] store ∧
        ((shown "b".toList format).run [] store).LeavesAlone store) ∧
      ∀ format, ¬(shown "a".toList format).Refuses [] store ∧
        (shown "a".toList format).target.Writable store ∧
        ((shown "a".toList format).run [] store).failure = none ∧
        store.Replaces ((shown "a".toList format).run [] store).store "o".toList
          (Utf8.encode (text format)) := by
  intro whole store shown text
  refine ⟨rfl, fun format => ?_, fun format => ?_⟩
  · have hfirst : decodeWith {} [0x01] = .ok (.unsigned 1, 1) := by decide
    have hcut : decodeWith {} [0x18] = .error (.argumentTooShort 1) := by decide
    have hrefuses : (shown "b".toList format).Refuses [] store :=
      .item (.plain rfl) (.later (tiles_singleton hfirst) (List.cons_ne_nil _ _) hcut)
    exact ⟨hrefuses, (run_delivers_all_or_nothing (shown "b".toList format) [] store).1 hrefuses⟩
  · have hfailure : ((shown "a".toList format).run [] store).failure = none := by
      cases format <;> decide
    have hshown : ¬(shown "a".toList format).Refuses [] store :=
      fun h => (leavesAlone_of_refuses h).failure hfailure
    have hwritable : (shown "a".toList format).target.Writable store := ⟨[], _, rfl⟩
    obtain ⟨data, steps, hsupplies, hshows, hwritten, -⟩ :=
      (run_delivers_all_or_nothing (shown "a".toList format) [] store).2 hshown
    have hdata : (shown "a".toList format).source.readData false [] store = .ok whole := rfl
    cases hdata.symm.trans (Source.readData_eq_ok_iff.mpr hsupplies)
    have hsteps : splitItems {} true whole =
        .ok [⟨0, [0x01], .unsigned 1⟩, ⟨1, [0x81, 0xF6], .array [.null]⟩] := by decide
    cases hsteps.symm.trans hshows.splitItems_eq
    refine ⟨hshown, hwritable, hfailure, ?_⟩
    cases format <;> exact (hwritten hwritable).2.2

end Inspection

end Cbor
