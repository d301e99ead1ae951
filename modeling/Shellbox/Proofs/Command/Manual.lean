import Mathlib.Data.List.Nodup
import Shellbox.Command.Manual
import Shellbox.Proofs.Line.Redirected
import Shellbox.Proofs.Text.Lines
import Shellbox.Proofs.Text.Words

/-!
# Manuals read back

Of a text only the trimmed lines that are not empty count for the manual that is read from it. So
a manual is read back from every text that is laid out as manuals are: a summary, a description and
the sections in any order, with blanks around the lines and blank lines between them.
-/

namespace Shellbox.Manual

open Text
open Line (trim_trim trim_append)

variable {text other l t : String} {ls ts : List String} {m : Manual} {c : Char}
  {cs acc : List Char} {s : Section} {order : List Section}

/-! ## The lines that count -/

/-- The trimmed pieces that are not empty. -/
def kept (pieces : List (List Char)) : List (List Char) :=
  (pieces.map trimChars).filter (!·.isEmpty)

theorem kept_cons (cs : List Char) (pieces : List (List Char)) :
    kept (cs :: pieces) = kept [cs] ++ kept pieces :=
  List.filter_append [trimChars cs] (pieces.map trimChars)

theorem kept_congr (h : trimChars cs = trimChars acc) (pieces : List (List Char)) :
    kept (cs :: pieces) = kept (acc :: pieces) := by
  rw [kept, kept, List.map_cons, List.map_cons, h]

theorem kept_splitOn_blank (hc : isBlank c) (cs : List Char) :
    kept ((c :: cs).splitOn '\n') = kept (cs.splitOn '\n') := by
  rw [List.splitOn_cons_eq_if_modifyHead]
  split
  · rfl
  · obtain ⟨first, rest, hpieces⟩ := List.exists_cons_of_ne_nil (List.splitOn_ne_nil '\n' cs)
    rw [hpieces, List.modifyHead_cons, kept_congr (trimChars_blank hc first)]

/-- A blank at the end belongs to the piece under way, whatever is in front of it. -/
theorem kept_splitOnPPrepend_blank (hc : isBlank c) (cs acc : List Char) :
    kept ((cs ++ [c]).splitOnPPrepend (· == '\n') acc) =
      kept (cs.splitOnPPrepend (· == '\n') acc) := by
  induction cs generalizing acc with
  | nil =>
      rw [List.nil_append, List.splitOnPPrepend_cons_eq_if, List.splitOnPPrepend_nil]
      split
      · rw [kept_cons, List.splitOnP_nil]
        exact List.append_nil _
      · rw [List.splitOnPPrepend_nil, List.reverse_cons]
        exact kept_congr (trimChars_concat_blank hc _) []
  | cons d cs ih =>
      rw [List.cons_append, List.splitOnPPrepend_cons_eq_if, List.splitOnPPrepend_cons_eq_if]
      split
      · rw [List.splitOnP_eq_splitOnPPrepend, List.splitOnP_eq_splitOnPPrepend, kept_cons, ih,
          ← kept_cons]
      · exact ih (d :: acc)

theorem kept_splitOn_concat_blank (hc : isBlank c) (cs : List Char) :
    kept ((cs ++ [c]).splitOn '\n') = kept (cs.splitOn '\n') := by
  simp only [List.splitOn_eq_splitOnP, List.splitOnP_eq_splitOnPPrepend]
  exact kept_splitOnPPrepend_blank hc cs []

/-- Trimming a text takes away nothing but lines that do not count. -/
theorem kept_splitOn_trimChars (cs : List Char) :
    kept ((trimChars cs).splitOn '\n') = kept (cs.splitOn '\n') :=
  ((isPadded_trimChars cs).map_eq (f := fun cs => kept (cs.splitOn '\n')) kept_splitOn_blank
    kept_splitOn_concat_blank).symm

/-- The trimmed lines that are not empty. -/
def entriesOf (ls : List String) : List String := (ls.map trim).filter (!·.isEmpty)

/-- The lines of a text that count. -/
def entries (text : String) : List String := entriesOf (pieces '\n' text)

theorem entriesOf_map_ofList (css : List (List Char)) :
    entriesOf (css.map String.ofList) = (kept css).map String.ofList := by
  induction css with
  | nil => rfl
  | cons cs css ih =>
      rw [kept_cons, List.map_append, ← ih]
      cases hcs : trimChars cs <;> simp [entriesOf, kept, trim, hcs]

theorem entries_trim (text : String) : entries (trim text) = entries text := by
  rw [entries, entries, pieces, pieces, entriesOf_map_ofList, entriesOf_map_ofList, trim,
    String.toList_ofList, kept_splitOn_trimChars]

/-! ## Reading the lines that count -/

@[simp]
theorem Section.ofHeading?_heading (s : Section) : Section.ofHeading? s.heading = some s := by
  cases s <;> decide

/-- A line for a manual: trimmed, not empty, and none of the headings. -/
structure IsEntry (l : String) : Prop where
  ne_empty : l ≠ ""
  trimmed : trim l = l
  not_heading : ∀ s : Section, l ≠ s.heading

theorem isEntry_iff :
    IsEntry l ↔ l ≠ "" ∧ trim l = l ∧ ∀ s ∈ [Section.usage, .options, .escapes, .examples],
      l ≠ s.heading :=
  ⟨fun h => ⟨h.ne_empty, h.trimmed, fun s _ => h.not_heading s⟩,
    fun ⟨hne, htrim, hs⟩ => ⟨hne, htrim, fun s => hs s (by cases s <;> simp)⟩⟩

instance (l : String) : Decidable (IsEntry l) := decidable_of_iff _ isEntry_iff.symm

theorem IsEntry.ofHeading? (h : IsEntry l) : Section.ofHeading? l = none := by
  rw [Section.ofHeading?, List.find?_eq_none]
  intro s _ hs
  exact h.not_heading s (by simpa using (of_decide_eq_true hs).symm)

theorem takeLines_filter (m : Manual) (current : Option Section) (ls : List String) :
    takeLines m current (ls.filter (!·.isEmpty)) = takeLines m current ls := by
  induction ls generalizing m current with
  | nil => rfl
  | cons l ls ih =>
      by_cases hl : l = ""
      · subst hl
        exact ih m current
      · rw [List.filter_cons_of_pos (by simpa using hl), takeLines.eq_def, takeLines.eq_def]
        simp only [ih]

theorem summaryOf_trim (l : String) : summaryOf (trim l) = summaryOf l := by
  rw [summaryOf, summaryOf, trim_trim]

/-- Reads a manual from the lines that count. -/
def ofEntries : List String → Manual
  | [] => {}
  | first :: rest => takeLines { summary := summaryOf first } none rest

/-- The first piece of a trimmed text is no blank line. -/
theorem trimChars_first_piece (h : trimStart cs = cs) (hne : cs ≠ []) :
    ∃ first rest, cs.splitOn '\n' = first :: rest ∧ trimChars first ≠ [] := by
  obtain ⟨c, cs, rfl⟩ := List.exists_cons_of_ne_nil hne
  have hc : isBlank c = false := by
    have hhead := List.head?_dropWhile_not isBlank (c :: cs)
    rw [← trimStart, h] at hhead
    simpa using hhead
  have hbreak : c ≠ '\n' := by
    rintro rfl
    exact absurd hc (by decide)
  obtain ⟨first, rest, hpieces⟩ := List.exists_cons_of_ne_nil (List.splitOn_ne_nil '\n' cs)
  refine ⟨c :: first, rest, ?_, ?_⟩
  · rw [List.splitOn_cons_eq_if_modifyHead, if_neg (by simpa using hbreak), hpieces,
      List.modifyHead_cons]
  · rw [trimChars, trimStart_cons, if_neg (by simp [hc]), trimEnd_cons, if_neg (by simp [hc])]
    exact List.cons_ne_nil _ _

theorem ofText_eq (text : String) : ofText text = ofEntries (entries text) := by
  rw [← entries_trim, ofText, entries]
  by_cases hne : trim text = ""
  · rw [hne]
    decide
  · have hstart : trimStart (trim text).toList = (trim text).toList := by
      rw [trim, String.toList_ofList, ← trimStart_trimEnd, trimStart, trimStart,
        List.dropWhile_idempotent]
    obtain ⟨first, rest, hpieces, hfirst⟩ := trimChars_first_piece hstart (by simpa using hne)
    have hkept : entriesOf (pieces '\n' (trim text)) =
        trim (String.ofList first) :: entriesOf (rest.map String.ofList) := by
      rw [pieces, hpieces, List.map_cons, entriesOf, List.map_cons,
        List.filter_cons_of_pos (by simpa [trim, String.isEmpty_iff] using hfirst), entriesOf]
    rw [hkept, ofEntries, summaryOf_trim, entriesOf, takeLines_filter, pieces, hpieces]
    rfl

/-! ## Layouts -/

/-- What a manual is written from: all the lines that a section has. -/
structure Outline where
  summary : String
  description : List String
  lines : Section → List String

namespace Outline

variable {d : Outline} {stops : String}

/-- The manual that an outline stands for. -/
def manual (d : Outline) : Manual where
  summary := d.summary
  description := " ".intercalate d.description
  usage := (d.lines .usage).headD ""
  options := d.lines .options
  escapes := d.lines .escapes
  examples := d.lines .examples

/-- The summary is a line that ends in no full stop, and all the others are entries. -/
structure IsProper (d : Outline) : Prop where
  summary_ne_empty : d.summary ≠ ""
  summary_trimmed : trim d.summary = d.summary
  summary_open : d.summary.toList.getLast? ≠ some '.'
  description : ∀ l ∈ d.description, IsEntry l
  lines : ∀ s, ∀ l ∈ d.lines s, IsEntry l

/-- The lines of an outline with full stops behind the summary and the sections in an order. -/
def layout (d : Outline) (stops : String) (order : List Section) : List String :=
  (d.summary ++ stops) :: (d.description ++ order.flatMap fun s => s.heading :: d.lines s)

end Outline

/-- Lines are written with blanks around them and blank lines between them. -/
inductive Spread : List String → List String → Prop
  | nil : Spread [] []
  | gap {t : String} {ls ts : List String} (blank : isAllBlank t) (rest : Spread ls ts) :
      Spread ls (t :: ts)
  | line {l t : String} {ls ts : List String} (padded : IsPadded l.toList t.toList)
      (rest : Spread ls ts) : Spread (l :: ls) (t :: ts)

/-- A text is a layout of the outline: sections without lines may be left out of it. -/
def Outline.Renders (d : Outline) (text : String) : Prop :=
  ∃ stops order ts, (∀ c ∈ stops.toList, c = '.') ∧ order.Nodup ∧
    (∀ s, d.lines s ≠ [] → s ∈ order) ∧ Spread (d.layout stops order) ts ∧
    (∀ t ∈ ts, '\n' ∉ t.toList) ∧ text = joinLines ts

/-- The texts have the same lines behind their indentation. -/
def Reindents (text other : String) : Prop :=
  (pieces '\n' text).map (trimStart ·.toList) = (pieces '\n' other).map (trimStart ·.toList)

theorem Spread.entriesOf_eq (h : Spread ls ts) (hls : ∀ l ∈ ls, l ≠ "" ∧ trim l = l) :
    entriesOf ts = ls := by
  induction h with
  | nil => rfl
  | gap blank _ ih =>
      have hblank : trim _ = "" := (isAllBlank_iff.mp blank).trim_congr
      rw [entriesOf, List.map_cons, hblank, List.filter_cons_of_neg (by simp), ← entriesOf, ih hls]
  | line padded _ ih =>
      obtain ⟨⟨hne, htrim⟩, hls⟩ := List.forall_mem_cons.mp hls
      rw [entriesOf, List.map_cons, padded.trim_congr, htrim,
        List.filter_cons_of_pos (by simpa using hne), ← entriesOf, ih hls]

theorem Spread.of_entriesOf (h : entriesOf ts = ls) : Spread ls ts := by
  subst h
  induction ts with
  | nil => exact .nil
  | cons t ts ih =>
      have hpadded : IsPadded (trim t).toList t.toList := by
        rw [trim, String.toList_ofList]
        exact isPadded_trimChars t.toList
      by_cases ht : trim t = ""
      · rw [entriesOf, List.map_cons, List.filter_cons_of_neg (by simpa using ht)]
        rw [ht] at hpadded
        exact .gap (isAllBlank_iff.mpr hpadded) ih
      · rw [entriesOf, List.map_cons, List.filter_cons_of_pos (by simpa using ht)]
        exact .line hpadded ih

/-! ## Reading a layout -/

/-- Where a line goes, from within a section or from before the first. -/
def add (current : Option Section) (m : Manual) (l : String) : Manual :=
  match current with
  | none => m.describe l
  | some s => m.addLine l s

theorem takeLines_heading (m : Manual) (current : Option Section) (s : Section)
    (ls : List String) : takeLines m current (s.heading :: ls) = takeLines m (some s) ls := by
  rw [takeLines.eq_def]
  simp only [Section.ofHeading?_heading]

theorem takeLines_entry (hl : IsEntry l) (m : Manual) (current : Option Section)
    (ls : List String) :
    takeLines m current (l :: ls) = takeLines (add current m l) current ls := by
  rw [takeLines.eq_def]
  simp only [hl.ofHeading?, String.isEmpty_iff, hl.ne_empty, if_false]
  cases current <;> rfl

theorem takeLines_append (hls : ∀ l ∈ ls, IsEntry l) (m : Manual) (current : Option Section)
    (rest : List String) :
    takeLines m current (ls ++ rest) = takeLines (ls.foldl (add current) m) current rest := by
  induction ls generalizing m with
  | nil => rfl
  | cons l ls ih =>
      obtain ⟨hl, hls⟩ := List.forall_mem_cons.mp hls
      rw [List.cons_append, takeLines_entry hl, ih hls, List.foldl_cons]

theorem intercalate_ne_empty (hls : ∀ l ∈ ls, l ≠ "") (hne : ls ≠ []) :
    " ".intercalate ls ≠ "" := by
  obtain ⟨l, ls, rfl⟩ := List.exists_cons_of_ne_nil hne
  have hl : l ≠ "" := hls l List.mem_cons_self
  cases ls with
  | nil => rwa [String.intercalate_singleton]
  | cons next ls => simp [String.intercalate_cons_cons, hl]

/-- The description is joined by single spaces. -/
theorem foldl_describe (hls : ∀ l ∈ ls, l ≠ "") (m : Manual) (hm : m.description = "") :
    ls.foldl (add none) m = { m with description := " ".intercalate ls } := by
  induction ls using List.reverseRecOn with
  | nil => rw [List.foldl_nil, String.intercalate_nil, ← hm]
  | append_singleton ls l ih =>
      have hfront : ∀ l ∈ ls, l ≠ "" := fun l hl => hls l (by simp [hl])
      rw [List.foldl_concat, ih hfront, add, describe]
      by_cases hne : ls = []
      · simp [hne]
      · have hjoined : " ".intercalate ls ≠ "" := intercalate_ne_empty hfront hne
        rw [String.intercalate_append_of_ne_nil hne (by simp), String.intercalate_singleton]
        simp [hjoined]

/-- What the lines of one section change. -/
theorem foldl_addLine (hls : ∀ l ∈ ls, l ≠ "") (m : Manual) (s : Section) :
    ls.foldl (add (some s)) m =
      match s with
      | .usage => { m with usage := if m.usage = "" then ls.headD "" else m.usage }
      | .options => { m with options := m.options ++ ls }
      | .escapes => { m with escapes := m.escapes ++ ls }
      | .examples => { m with examples := m.examples ++ ls } := by
  induction ls generalizing m with
  | nil =>
      have husage : (if m.usage = "" then "" else m.usage) = m.usage :=
        ite_eq_right_iff.mpr Eq.symm
      cases s <;> simp [husage]
  | cons l ls ih =>
      obtain ⟨hl, hls⟩ := List.forall_mem_cons.mp hls
      rw [List.foldl_cons, ih hls]
      cases s with
      | usage => by_cases hm : m.usage = "" <;> simp [add, addLine, hm, hl]
      | options => simp [add, addLine]
      | escapes => simp [add, addLine]
      | examples => simp [add, addLine]

namespace Outline

variable {d : Outline} {stops : String}

/-- The lines of a section that has been read. -/
def readLines (d : Outline) (done : List Section) (s : Section) : List String :=
  if s ∈ done then d.lines s else []

/-- The manual as far as it stands when some sections have been read. -/
def readManual (d : Outline) (done : List Section) : Manual :=
  { d with lines := d.readLines done }.manual

/-- One more section adds its lines to the manual, whatever sections were read before. -/
theorem readManual_concat (hd : ∀ l ∈ d.lines s, l ≠ "") {done : List Section} (hs : s ∉ done) :
    (d.lines s).foldl (add (some s)) (d.readManual done) = d.readManual (done ++ [s]) := by
  rw [foldl_addLine hd]
  cases s <;> simp [readManual, manual, readLines, hs]

/-- Sections in any order add the lines of each. -/
theorem takeLines_sections (hd : d.IsProper) {done : List Section} (h : (done ++ order).Nodup)
    (current : Option Section) :
    takeLines (d.readManual done) current (order.flatMap fun s => s.heading :: d.lines s) =
      d.readManual (done ++ order) := by
  induction order generalizing done current with
  | nil => rw [List.append_nil]; rfl
  | cons s order ih =>
      have hs : s ∉ done := by
        have hdisjoint := List.disjoint_of_nodup_append h
        exact fun hmem => hdisjoint hmem List.mem_cons_self
      rw [List.flatMap_cons, List.cons_append, takeLines_heading, takeLines_append (hd.lines s),
        readManual_concat (fun l hl => (hd.lines s l hl).ne_empty) hs, ih (by simpa using h),
        List.append_assoc, List.singleton_append]

/-- Sections that have no lines need not be read. -/
theorem readManual_eq (h : ∀ s, d.lines s ≠ [] → s ∈ order) : d.readManual order = d.manual := by
  have hlines : d.readLines order = d.lines := by
    funext s
    rw [readLines]
    split
    · rfl
    · rename_i hs
      exact (not_not.mp (mt (h s) hs)).symm
  rw [readManual, hlines]

theorem trim_summary (hd : d.IsProper) (hstops : ∀ c ∈ stops.toList, c = '.') :
    trim (d.summary ++ stops) = d.summary ++ stops := by
  by_cases hne : stops = ""
  · rw [hne, String.append_empty, hd.summary_trimmed]
  · have hplain : ∀ c ∈ stops.toList, isBlank c = false := fun c hc => hstops c hc ▸ by decide
    have hstay : trim stops = stops := by
      rw [trim, trimChars_of_not_blank hplain, String.ofList_toList]
    simpa using trim_append hd.summary_ne_empty hd.summary_trimmed hne hstay ""

/-- The full stops behind the summary are dropped, and nothing of the summary is. -/
theorem summaryOf_stops (hd : d.IsProper) (hstops : ∀ c ∈ stops.toList, c = '.') :
    summaryOf (d.summary ++ stops) = d.summary := by
  have hopen : d.summary.toList.reverse.dropWhile (· = '.') = d.summary.toList.reverse := by
    rw [List.dropWhile_eq_self_iff]
    intro hpos hlast
    refine hd.summary_open ?_
    rw [← List.head?_reverse, List.head?_eq_getElem?, List.getElem?_eq_getElem hpos]
    exact congrArg some (by simpa using hlast)
  rw [summaryOf, trim_summary hd hstops, String.toList_append, List.reverse_append,
    List.dropWhile_append_of_pos (by simpa using hstops), hopen, List.reverse_reverse,
    String.ofList_toList]

theorem ofEntries_layout (hd : d.IsProper) (hstops : ∀ c ∈ stops.toList, c = '.')
    (horder : order.Nodup) (hall : ∀ s, d.lines s ≠ [] → s ∈ order) :
    ofEntries (d.layout stops order) = d.manual := by
  have hstart : d.description.foldl (add none) { summary := d.summary } = d.readManual [] := by
    rw [foldl_describe (fun l hl => (hd.description l hl).ne_empty) _ rfl]
    rfl
  rw [layout, ofEntries, summaryOf_stops hd hstops, takeLines_append hd.description, hstart,
    takeLines_sections hd (by simpa using horder), List.nil_append, readManual_eq hall]

theorem layout_trimmed (hd : d.IsProper) (hstops : ∀ c ∈ stops.toList, c = '.') :
    ∀ l ∈ d.layout stops order, l ≠ "" ∧ trim l = l := by
  have hheading (s : Section) : s.heading ≠ "" ∧ trim s.heading = s.heading := by
    cases s <;> decide
  rw [layout, List.forall_mem_cons, List.forall_mem_append, List.forall_mem_flatMap]
  refine ⟨⟨by simp [hd.summary_ne_empty], trim_summary hd hstops⟩,
    fun l hl => ⟨(hd.description l hl).ne_empty, (hd.description l hl).trimmed⟩, fun s _ => ?_⟩
  rw [List.forall_mem_cons]
  exact ⟨hheading s, fun l hl => ⟨(hd.lines s l hl).ne_empty, (hd.lines s l hl).trimmed⟩⟩

theorem Renders.ofText_eq (h : d.Renders text) (hd : d.IsProper) : ofText text = d.manual := by
  obtain ⟨stops, order, ts, hstops, horder, hall, hspread, hbreaks, rfl⟩ := h
  have hne : ts ≠ [] := by
    rintro rfl
    cases hspread
  rw [Manual.ofText_eq, entries, pieces_joinLines hbreaks hne,
    hspread.entriesOf_eq (layout_trimmed hd hstops), ofEntries_layout hd hstops horder hall]

end Outline

/-! ## Indentation -/

theorem entriesOf_congr {others : List String}
    (h : ls.map (trimStart ·.toList) = others.map (trimStart ·.toList)) :
    entriesOf ls = entriesOf others := by
  have htrim : trim = (String.ofList ∘ trimEnd) ∘ (trimStart ·.toList) := rfl
  have hmap : ls.map trim = others.map trim := by
    rw [htrim, ← List.map_map, h, List.map_map]
  rw [entriesOf, entriesOf, hmap]

theorem Reindents.ofText_eq (h : Reindents text other) : ofText text = ofText other := by
  rw [Manual.ofText_eq, Manual.ofText_eq, entries, entries, entriesOf_congr h]

/-- Every layout of an outline is read as the manual that the outline stands for, and no text is
read otherwise when its lines are indented otherwise. -/
theorem manual_reads_back :
    (∀ d : Outline, d.IsProper → ∀ text, d.Renders text →
      ofText text =
        { summary := d.summary
          description := " ".intercalate d.description
          usage := (d.lines .usage).headD ""
          options := d.lines .options
          escapes := d.lines .escapes
          examples := d.lines .examples }) ∧
    ∀ text other, Reindents text other → ofText text = ofText other :=
  ⟨fun _ hd _ h => h.ofText_eq hd, fun _ _ h => h.ofText_eq⟩

theorem manual_reads_back_out_of_order :
    ofText (joinLines ["", "  Do a thing (v1.0).", "", "\tLonger text ", "  continues here.",
        " Examples:", "", " thing -x", "", "Usage:", "\tthing [-x]", "Options:", ""]) =
      { summary := "Do a thing (v1.0)"
        description := "Longer text continues here."
        usage := "thing [-x]"
        examples := ["thing -x"] } ∧
    ofText "Do a thing.\nUsage:\n  thing" = ofText "\tDo a thing.\n\tUsage:\nthing" := by
  let d : Outline :=
    { summary := "Do a thing (v1.0)"
      description := ["Longer text", "continues here."]
      lines := fun
        | .usage => ["thing [-x]"]
        | .examples => ["thing -x"]
        | _ => [] }
  have hd : d.IsProper := by
    refine ⟨by decide, by decide, by decide, by decide, fun s => ?_⟩
    cases s <;> decide
  have hall : ∀ s, d.lines s ≠ [] → s ∈ [Section.examples, .usage, .options] := by
    intro s
    cases s <;> simp [d]
  constructor
  · exact manual_reads_back.1 d hd _
      ⟨".", _, _, by simp, by decide, hall, .of_entriesOf (by decide), by decide, rfl⟩
  · exact manual_reads_back.2 _ _ (by unfold Reindents; decide)

end Shellbox.Manual
