import Cbor.Proofs.HexReport
import Cbor.Proofs.JsonLexemes

/-!
# Lines of diagnostic text

The diagnostic text of an item has no control character, whatever bytes stand in its strings and
keys.  So each item of a sequence is shown on one line, and the lines of the report are the texts
of its items.
-/

namespace Cbor

/-! ## Texts without control characters -/

namespace Text

/-- None of U+0000 to U+001F and U+007F to U+009F is in the text. -/
def Clean (text : Text) : Prop :=
  ∀ c ∈ text, ¬(c.toNat ≤ 0x1F ∨ 0x7F ≤ c.toNat ∧ c.toNat ≤ 0x9F)

instance (text : Text) : Decidable text.Clean := List.decidableBAll _ text

theorem clean_nil : Clean [] := List.forall_mem_nil _

theorem Clean.append {text text' : Text} (h : text.Clean) (h' : text'.Clean) :
    (text ++ text').Clean :=
  List.forall_mem_append.mpr ⟨h, h'⟩

theorem Clean.cons {c : Char} {text : Text} (h : text.Clean) (hc : Clean [c] := by decide) :
    Clean (c :: text) :=
  hc.append h

theorem Clean.flatMap {α : Type} {write : α → Text} {xs : List α} (h : ∀ x ∈ xs, (write x).Clean) :
    Clean (xs.flatMap write) := by
  intro c hc
  obtain ⟨x, hx, hc⟩ := List.mem_flatMap.mp hc
  exact h x hx c hc

theorem Clean.of_sublist {part text : Text} (h : text.Clean) (hpart : part.Sublist text) :
    part.Clean :=
  fun c hc => h c (hpart.subset hc)

theorem clean_replicate {c : Char} (h : Clean [c]) (count : Nat) :
    Clean (List.replicate count c) := by
  intro c' hc'
  rw [List.eq_of_mem_replicate hc']
  exact h c List.mem_cons_self

theorem clean_join {separator : Text} {texts : List Text} (hseparator : separator.Clean)
    (htexts : ∀ text ∈ texts, text.Clean) : (join separator texts).Clean := by
  cases texts with
  | nil => exact clean_nil
  | cons first rest =>
      rw [List.forall_mem_cons] at htexts
      exact htexts.1.append (.flatMap fun text htext => hseparator.append (htexts.2 text htext))

theorem clean_quoted {spell : Char → Text} (hspell : ∀ c, (spell c).Clean) (text : Text) :
    (quoted spell text).Clean := by
  have hinside : Clean (text.flatMap spell) := .flatMap fun c _ => hspell c
  exact hinside.cons.append (by decide)

/-! ### Numbers -/

theorem clean_ofNat (number : Nat) : (ofNat number).Clean := by
  intro c hc
  have hdigit : 48 ≤ c.toNat ∧ c.toNat ≤ 57 := by
    simpa [Char.isDigit, UInt32.le_iff_toNat_le] using isDigit_of_mem_ofNat hc
  omega

theorem clean_ofInt (value : Int) : (ofInt value).Clean := by
  cases value with
  | ofNat number => exact clean_ofNat number
  | negSucc predecessor => exact (clean_ofNat (predecessor + 1)).cons

theorem clean_hexDigit {number : Nat} (h : number < 16) : Clean [hexDigit number] := by
  have hall : ∀ number < 16, Clean [hexDigit number] := by decide
  exact hall number h

end Text

open Text

theorem Hex.clean_encode (data : Bytes) : (encode data).Clean := by
  intro c hc
  obtain ⟨number, hnumber, rfl⟩ := exists_of_mem_encode hc
  exact clean_hexDigit hnumber _ List.mem_cons_self

/-! ### Floats -/

namespace Decimal.Layout

theorem clean_positional {digits : Text} (h : digits.Clean) (exponent : Int) :
    (positional digits exponent).Clean := by
  have hzeros : ∀ count, Clean (List.replicate count '0') := clean_replicate (by decide)
  simp only [positional]
  split
  · exact (h.append (hzeros _)).append (by decide)
  · split
    · exact (hzeros _).cons.cons.append h
    · exact ((h.of_sublist (List.take_sublist ..)).append (by decide)).append
        (h.of_sublist (List.drop_sublist ..))

theorem clean_scientific (layout : Layout) {digits : Text} (h : digits.Clean) (leading : Int) :
    (layout.scientific digits leading).Clean := by
  have hfraction : Clean (digits.drop 1) := h.of_sublist (List.drop_sublist ..)
  have hpoint : Clean (if (digits.drop 1).isEmpty then [] else '.' :: digits.drop 1) := by
    split
    · exact clean_nil
    · exact hfraction.cons
  have hsign : Clean (if layout.plusSign ∧ 0 ≤ leading then ['+'] else []) := by
    split <;> decide
  have hlead := (h.of_sublist (List.take_sublist 1 digits)).append hpoint
  exact ((hlead.append (by decide)).append hsign).append (clean_ofInt leading)

theorem clean_decimal (layout : Layout) (x : Shortest) : (layout.decimal x).Clean := by
  have hdigits := clean_ofNat x.digits
  simp only [decimal]
  split
  · exact clean_positional hdigits _
  · exact clean_scientific layout hdigits _

theorem clean_of_finite? {layout : Layout} {x : FloatValue} {text : Text}
    (h : layout.finite? x = some text) : text.Clean := by
  have hsign : ∀ negative, (finite?.sign negative).Clean := by decide
  cases x with
  | nan | infinite => contradiction
  | zero negative =>
      cases h
      exact (hsign negative).append (by decide)
  | finite negative magnitude =>
      cases h
      exact (hsign negative).append (clean_decimal layout _)

end Decimal.Layout

/-! ## Diagnostic text -/

namespace Diagnostic

theorem clean_spell (c : Char) : (spell c).Clean := by
  unfold spell
  split
  case h_1 | h_2 | h_3 | h_4 | h_5 => decide
  case h_6 =>
    split
    · next hcontrol =>
        -- the escape of a control character is the only one with its number in it
        have hcode : c.toNat < 0x100 := by
          simp [isControl] at hcontrol
          omega
        have hzero := clean_hexDigit (show 0 < 16 by decide)
        have hhigh := clean_hexDigit (show c.toNat / 16 < 16 by omega)
        have hlow := clean_hexDigit (show c.toNat % 16 < 16 by omega)
        rw [hexNat_four hcode]
        exact (hzero.append (hzero.append (hhigh.append hlow))).cons.cons
    · next hplain =>
        simp [isControl] at hplain
        simp only [Clean, List.forall_mem_singleton]
        omega

theorem clean_string (content : Bytes) : (string content).Clean :=
  clean_quoted clean_spell _

theorem clean_float (format : FloatFormat) (bits : Nat) : (float format bits).Clean := by
  unfold float
  split
  · decide
  · decide
  · cases hfinite : layout.finite? (FloatValue.ofBits format bits) with
    | none => decide
    | some text => exact Decimal.Layout.clean_of_finite? hfinite

end Diagnostic

namespace Item

mutual

theorem clean_diagnostic : ∀ item : Item, item.diagnostic.Clean
  | .unsigned number => clean_ofNat number.toNat
  | .negative magnitude => (clean_ofNat magnitude.toNat).cons
  | .bytes content => (Hex.clean_encode content).cons.cons.append (by decide)
  | .text content => Diagnostic.clean_string content
  | .array items => (clean_join (by decide) (clean_diagnostics items)).cons.append (by decide)
  | .map entries =>
      (clean_join (by decide) (clean_entryDiagnostics entries)).cons.append (by decide)
  | .tagged tag content =>
      ((clean_ofNat tag.toNat).append (clean_diagnostic content).cons).append (by decide)
  | .bool true | .bool false | .null | .undefined => by decide
  | .single bits => Diagnostic.clean_float .single bits.toNat
  | .double bits => Diagnostic.clean_float .double bits.toNat

theorem clean_diagnostics : ∀ items, ∀ text ∈ diagnostics items, text.Clean
  | [] => List.forall_mem_nil _
  | item :: items => List.forall_mem_cons.mpr ⟨clean_diagnostic item, clean_diagnostics items⟩

theorem clean_entryDiagnostics : ∀ entries, ∀ text ∈ entryDiagnostics entries, text.Clean
  | [] => List.forall_mem_nil _
  | (key, value) :: entries =>
      have hkey := (Diagnostic.clean_string key).append (show Clean ": ".toList by decide)
      List.forall_mem_cons.mpr
        ⟨hkey.append (clean_diagnostic value), clean_entryDiagnostics entries⟩

end

end Item

/-! ## Lines -/

namespace Text

theorem join_eq_intercalate (separator : Text) (texts : List Text) :
    join separator texts = separator.intercalate texts := by
  cases texts with
  | nil => rfl
  | cons first rest =>
      rw [join]
      induction rest generalizing first with
      | nil => simp
      | cons text rest ih =>
          rw [List.flatMap_cons, List.intercalate_cons_cons, ← ih, List.append_assoc,
            List.append_assoc]

theorem Clean.not_mem {text : Text} (h : text.Clean) : '\n' ∉ text :=
  fun hmem => h '\n' hmem (by decide)

/-- Clean texts are the lines of the text that has a line break between each two. -/
theorem splitOn_join {lines : List Text} (hlines : lines ≠ []) (h : ∀ line ∈ lines, line.Clean) :
    (join ['\n'] lines).splitOn '\n' = lines := by
  rw [join_eq_intercalate]
  exact List.splitOn_intercalate '\n' (fun line hline => (h line hline).not_mem) hlines

end Text

namespace Inspection

variable {options : Options} {data : Bytes} {steps : List Step}

theorem steps_ne_nil_of_splitItems (h : splitItems options true data = .ok steps) :
    steps ≠ [] := by
  rw [ne_eq, (tiles_of_splitItems h).eq_nil_iff]
  exact ne_nil_of_splitItems h

theorem decodeAllWith_of_splitItems (h : splitItems options true data = .ok steps) :
    decodeAllWith options data = .ok (steps.map Step.item) := by
  rw [decodeAllWith_eq_splitItems options (ne_nil_of_splitItems h), h]

theorem splitOn_report (h : steps ≠ []) :
    (report .diagnostic steps).splitOn '\n' = (steps.map Step.item).map Item.diagnostic := by
  have hlines : steps.map (Format.write .diagnostic) =
      (steps.map Step.item).map Item.diagnostic := by
    rw [List.map_map]
    rfl
  rw [report, hlines]
  refine splitOn_join (by simpa using h) fun line hline => ?_
  obtain ⟨item, -, rfl⟩ := List.mem_map.mp hline
  exact item.clean_diagnostic

/--
No diagnostic text has a control character in it, whatever the item.  So what an inspection shows
of a sequence in that form has a line for each item, in order, which is the text of the item;
behind them standard output gets one more line break, and a file nothing.
-/
theorem diagnostic_lines :
    (∀ item : Item, ∀ c ∈ item.diagnostic,
      ¬(c.toNat ≤ 0x1F ∨ 0x7F ≤ c.toNat ∧ c.toNat ≤ 0x9F)) ∧
    ∀ (inspection : Inspection) (stdin : Bytes) (store : Store),
      inspection.format = .diagnostic → inspection.sequence = true →
      (inspection.run stdin store).failure = none →
      ∃ data items text, inspection.source.readData inspection.hex stdin store = .ok data ∧
        decodeAllWith inspection.options data = .ok items ∧
        inspection.target.Receives store (inspection.run stdin store)
          (text ++ inspection.target.ending) ∧
        text.splitOn '\n' = items.map Item.diagnostic ∧
        (text.splitOn '\n').length = items.length := by
  refine ⟨Item.clean_diagnostic, fun inspection stdin store hformat hsequence hrun => ?_⟩
  obtain ⟨data, steps, hread, hsplit, heq⟩ := exists_steps_of_run hrun
  rw [hsequence] at hsplit
  rw [hformat] at heq
  rw [heq] at hrun ⊢
  have hlines := splitOn_report (steps_ne_nil_of_splitItems hsplit)
  refine ⟨data, steps.map Step.item, report .diagnostic steps, hread,
    decodeAllWith_of_splitItems hsplit, receives_deliver_ending hrun, hlines, ?_⟩
  rw [hlines, List.length_map]

/-- A text of a line break, a byte that is no UTF-8 and the control character U+0085, and a map
under a key that would start a terminal sequence. -/
theorem diagnostic_lines_escaped :
    let data : Bytes := [0x64, 0x0A, 0xFF, 0xC2, 0x85, 0xA1, 0x61, 0x1B, 0xF9, 0xBC, 0x00]
    let store : Store := { files := [(["a".toList], data)] }
    let shown : Inspection := { sequence := true, source := .file "a".toList }
    shown.format = .diagnostic ∧ shown.sequence = true ∧ (shown.run [] store).failure = none ∧
      ∃ text, (shown.run [] store).stdout = text ++ ['\n'] ∧
        text.splitOn '\n' = ["\"\\n\uFFFD\\u0085\"".toList, "\x7b\"\\u001b\": -1.0\x7d".toList] := by
  intro data store shown
  have hrun : (shown.run [] store).failure = none := by decide
  obtain ⟨data', items, text, hread, hitems, ⟨hstdout, -⟩, hlines, -⟩ :=
    diagnostic_lines.2 shown [] store rfl rfl hrun
  have hsource : shown.source.read [] store = .ok data := rfl
  cases (Source.readData_of_read hsource).symm.trans hread
  have hall : decodeAllWith {} data =
      .ok [.text [0x0A, 0xFF, 0xC2, 0x85], .map [([0x1B], .single 0xBF800000)]] := by decide
  cases hall.symm.trans hitems
  refine ⟨rfl, rfl, hrun, text, hstdout, ?_⟩
  rw [hlines]
  decide

end Inspection

end Cbor
