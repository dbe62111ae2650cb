/-
Blocks are segments.  Cut behind every marker that ends a block and in front of
every marker that begins one, any lines fall into segments, and the blocks are
the segments in order: those that end with such a marker are atomic, the others
plain, and only plain ones that are blank are dropped.  The lines behind the last
cut are a run without markers, with a marker that begins a block in front of it
exactly when the block is still open.
-/
import Mathlib.Data.List.SplitBy
import Mathlib.Data.List.TakeWhile
import SqlScript.Annotated.Builder

namespace SqlScript

namespace Text

theorem joinLines_cons_cons (line next : Text) (others : List Text) :
    joinLines (line :: next :: others) = line ++ '\n' :: joinLines (next :: others) := rfl

/-- Joined lines are blank when all of them are. -/
theorem allBlank_joinLines (lines : List Text) :
    allBlank (joinLines lines) = lines.all allBlank := by
  have hnewline : isBlank '\n' = true := by decide
  induction lines with
  | nil => rfl
  | cons line others ih =>
      cases others with
      | nil => simp [joinLines]
      | cons next others =>
          rw [joinLines_cons_cons, List.all_cons, ← ih]
          simp [allBlank, hnewline]

/-- Joined lines are blank only if the first of them is. -/
theorem allBlank_of_allBlank_joinLines {line : Text} {others : List Text}
    (h : allBlank (joinLines (line :: others)) = true) : allBlank line = true := by
  rw [allBlank_joinLines, List.all_cons, Bool.and_eq_true] at h
  exact h.1

end Text

namespace Marker

/-- Two neighbouring lines belong to different segments when the first ends a
block or the second begins one. -/
def cutsBetween (tool before behind : Text) : Bool :=
  decide (ofLine? tool before = some .blockEnd ∨ ofLine? tool behind = some .blockBegin)

/-- Lines cut into segments. -/
def segments (tool : Text) (lines : List Text) : List (List Text) :=
  lines.splitBy fun before behind => !cutsBetween tool before behind

/-- A line with a marker is not blank. -/
theorem not_allBlank_of_ofLine? {tool line : Text} {marker : Marker}
    (h : ofLine? tool line = some marker) : ¬ Text.allBlank line = true := by
  intro hblank
  have hstart : Text.trimStart line = [] := by
    rw [Text.trimStart, List.dropWhile_eq_nil_iff]
    exact List.all_eq_true.mp hblank
  have hcomment : isComment line = false := by
    rw [isComment, Text.trim, hstart]
    rfl
  rw [ofLine?, hcomment] at h
  exact absurd h (by simp)

/-- Lines stay in one segment as long as no marker ends a block among them and
none begins one behind the first. -/
theorem isChain_of_no_cut {tool : Text} {lines : List Text}
    (hends : ∀ line ∈ lines.dropLast, ofLine? tool line ≠ some .blockEnd)
    (hbegins : ∀ line ∈ lines.tail, ofLine? tool line ≠ some .blockBegin) :
    lines.IsChain fun before behind => (!cutsBetween tool before behind) = true := by
  induction lines with
  | nil => exact .nil
  | cons line others ih =>
      cases others with
      | nil => exact .singleton line
      | cons next others =>
          rw [List.dropLast_cons_cons, List.forall_mem_cons] at hends
          rw [List.tail_cons, List.forall_mem_cons] at hbegins
          rw [List.isChain_cons_cons]
          refine ⟨?_, ih hends.2 hbegins.2⟩
          simp [cutsBetween, hends.1, hbegins.1]

theorem segments_append {tool : Text} {front lines : List Text}
    (hcut : ∀ before ∈ front.getLast?, ∀ behind ∈ lines.head?,
      cutsBetween tool before behind = true) :
    segments tool (front ++ lines) = segments tool front ++ segments tool lines := by
  apply List.splitBy_append
  intro before hbefore behind hbehind
  rw [hcut before hbefore behind hbehind]
  rfl

theorem segments_of_no_cut {tool : Text} {lines : List Text} (hne : lines ≠ [])
    (hends : ∀ line ∈ lines.dropLast, ofLine? tool line ≠ some .blockEnd)
    (hbegins : ∀ line ∈ lines.tail, ofLine? tool line ≠ some .blockBegin) :
    segments tool lines = [lines] :=
  List.splitBy_of_isChain hne (isChain_of_no_cut hends hbegins)

/-- Lines leave a block open when a marker begins one among them and no marker
behind it ends one. -/
def LeftOpen (tool : Text) (lines : List Text) : Prop :=
  ∃ front line rest, lines = front ++ line :: rest ∧ ofLine? tool line = some .blockBegin ∧
    ∀ other ∈ rest, ofLine? tool other ≠ some .blockEnd

/-- What is behind the last cut when lines end: `closed` are the lines in front of
it, and `opened` those behind. -/
inductive Opened (tool : Text) : (inBlock : Bool) → (closed opened : List Text) → Prop where
  /-- Lines without markers, behind a marker that ends a block or at the start. -/
  | outside {closed plain : List Text}
      (hclosed : ∀ last ∈ closed.getLast?, ofLine? tool last = some .blockEnd)
      (hplain : ∀ line ∈ plain, ofLine? tool line = none) : Opened tool false closed plain
  /-- A marker that begins a block, and lines without markers. -/
  | inside {closed plain : List Text} {line : Text}
      (hline : ofLine? tool line = some .blockBegin)
      (hplain : ∀ line ∈ plain, ofLine? tool line = none) : Opened tool true closed (line :: plain)

namespace Opened

variable {tool line : Text} {inBlock : Bool} {closed opened : List Text}

theorem not_end (h : Opened tool inBlock closed opened) :
    ∀ line ∈ opened, ofLine? tool line ≠ some .blockEnd := by
  cases h with
  | outside hclosed hplain =>
      intro line hline
      simp [hplain line hline]
  | inside hbegin hplain =>
      rw [List.forall_mem_cons, hbegin]
      refine ⟨by simp, ?_⟩
      intro line hline
      simp [hplain line hline]

theorem tail_plain (h : Opened tool inBlock closed opened) :
    ∀ line ∈ opened.tail, ofLine? tool line = none := by
  cases h with
  | outside hclosed hplain => exact fun line hline => hplain line (List.mem_of_mem_tail hline)
  | inside hbegin hplain => exact hplain

theorem exists_begin (h : Opened tool inBlock closed opened) (hinBlock : inBlock = true) :
    ∃ line plain, opened = line :: plain ∧ ofLine? tool line = some .blockBegin ∧
      ∀ other ∈ plain, ofLine? tool other = none := by
  cases h with
  | outside hclosed hplain => exact absurd hinBlock Bool.false_ne_true
  | inside hbegin hplain => exact ⟨_, _, rfl, hbegin, hplain⟩

/-- The last cut is in front of the open lines, whatever follows them. -/
theorem segments_append (h : Opened tool inBlock closed opened) (more : List Text) :
    segments tool (closed ++ (opened ++ more)) =
      segments tool closed ++ segments tool (opened ++ more) := by
  apply Marker.segments_append
  cases h with
  | outside hclosed hplain =>
      intro before hbefore behind _
      simp [cutsBetween, hclosed before hbefore]
  | inside hbegin hplain =>
      intro before _ behind hbehind
      obtain rfl : _ = behind := Option.some.inj hbehind
      simp [cutsBetween, hbegin]

/-- The open lines are one segment, if there are any. -/
theorem segments_opened (h : Opened tool inBlock closed opened) (hne : opened ≠ []) :
    segments tool opened = [opened] := by
  apply segments_of_no_cut hne
  · intro line hline
    exact h.not_end line (List.dropLast_subset opened hline)
  · intro line hline
    simp [h.tail_plain line hline]

/-- A marker that ends a block is the last line of the segment it closes. -/
theorem segments_ended (h : Opened tool inBlock closed opened)
    (hline : ofLine? tool line = some .blockEnd) :
    segments tool (opened ++ [line]) = [opened ++ [line]] := by
  apply segments_of_no_cut (by simp)
  · rw [List.dropLast_concat]
    exact h.not_end
  · intro other hother
    cases opened with
    | nil => exact absurd hother List.not_mem_nil
    | cons first others =>
        rcases List.mem_append.mp hother with hopened | hlast
        · simp [h.tail_plain other hopened]
        · rw [List.mem_singleton.mp hlast, hline]
          simp

theorem concat (h : Opened tool inBlock closed opened) (hline : ofLine? tool line = none) :
    Opened tool inBlock closed (opened ++ [line]) := by
  have hplain {plain : List Text} (hplain : ∀ line ∈ plain, ofLine? tool line = none) :
      ∀ other ∈ plain ++ [line], ofLine? tool other = none := by
    rw [List.forall_mem_append, List.forall_mem_singleton]
    exact ⟨hplain, hline⟩
  cases h with
  | outside hclosed hlines => exact .outside hclosed (hplain hlines)
  | inside hbegin hlines => exact .inside hbegin (hplain hlines)

theorem of_end (hline : ofLine? tool line = some .blockEnd) (front : List Text) :
    Opened tool false (front ++ [line]) [] := by
  refine .outside ?_ (List.forall_mem_nil _)
  intro last hlast
  rw [List.getLast?_concat] at hlast
  obtain rfl : line = last := Option.some.inj hlast
  exact hline

theorem of_begin (hline : ofLine? tool line = some .blockBegin) (front : List Text) :
    Opened tool true front [line] :=
  .inside hline (List.forall_mem_nil _)

theorem leftOpen_iff (h : Opened tool inBlock closed opened) :
    LeftOpen tool (closed ++ opened) ↔ inBlock = true := by
  constructor
  · rintro ⟨front, line, rest, hlines, hline, hrest⟩
    cases h with
    | inside hbegin hplain => rfl
    | outside hclosed hplain =>
        have hnot : line ∉ opened := fun hmem => by simp [hplain line hmem] at hline
        rcases List.append_eq_append_iff.mp hlines with
          ⟨between, -, hopened⟩ | ⟨between, hfront, hbehind⟩
        · exact absurd (hopened ▸ List.mem_append_right between List.mem_cons_self) hnot
        · -- The last of the closed lines ends a block, and is `line` or stands behind it.
          cases between with
          | nil =>
              rw [List.nil_append] at hbehind
              exact absurd (hbehind ▸ List.mem_cons_self) hnot
          | cons first others =>
              obtain ⟨rfl, rfl⟩ := List.cons.inj hbehind
              have hlast := List.getLast?_eq_some_getLast (List.cons_ne_nil line others)
              generalize (line :: others).getLast _ = last at hlast
              have hends := hclosed last (by rw [hfront, List.getLast?_append, hlast]; rfl)
              rcases List.mem_cons.mp (List.mem_of_getLast? hlast) with rfl | hothers
              · exact absurd (hline.symm.trans hends) (by simp)
              · exact absurd hends (hrest last (List.mem_append_left opened hothers))
  · intro hinBlock
    obtain ⟨line, plain, rfl, hline, hplain⟩ := h.exists_begin hinBlock
    exact ⟨closed, line, plain, rfl, hline, fun other hother => by simp [hplain other hother]⟩

end Opened

end Marker

namespace Block

/-- What becomes of a segment.  One that ends with a marker is atomic; any other
is plain, and dropped when it is blank. -/
def ofSegment? (tool : Text) (segment : List Text) : Option Block :=
  if segment.getLast?.bind (Marker.ofLine? tool) = some .blockEnd then
    some ⟨Text.joinLines segment, true⟩
  else if Text.allBlank (Text.joinLines segment) then none
  else some ⟨Text.joinLines segment, false⟩

/-- The blocks of some lines, segment by segment. -/
def ofLines (tool : Text) (lines : List Text) : List Block :=
  (Marker.segments tool lines).filterMap (ofSegment? tool)

variable {tool line : Text} {inBlock : Bool} {closed opened : List Text}

theorem ofSegment?_of_end (hline : Marker.ofLine? tool line = some .blockEnd) (front : List Text) :
    ofSegment? tool (front ++ [line]) = some ⟨Text.joinLines (front ++ [line]), true⟩ := by
  rw [ofSegment?, List.getLast?_concat, Option.bind_some, if_pos hline]

theorem ofSegment?_of_not_end
    (hopened : ∀ line ∈ opened, Marker.ofLine? tool line ≠ some .blockEnd) :
    ofSegment? tool opened =
      if Text.allBlank (Text.joinLines opened) then none
      else some ⟨Text.joinLines opened, false⟩ := by
  rw [ofSegment?, if_neg]
  intro hlast
  obtain ⟨last, hlast, hends⟩ := Option.bind_eq_some_iff.mp hlast
  exact hopened last (List.mem_of_getLast? hlast) hends

/-- Open lines at the end are a plain block, unless they are blank. -/
theorem ofLines_opened (h : Marker.Opened tool inBlock closed opened) :
    ofLines tool (closed ++ opened) =
      if Text.allBlank (Text.joinLines opened) then ofLines tool closed
      else ofLines tool closed ++ [⟨Text.joinLines opened, false⟩] := by
  by_cases hempty : opened = []
  · rw [hempty, List.append_nil]
    rfl
  · have hsegments := h.segments_append []
    rw [List.append_nil, h.segments_opened hempty] at hsegments
    have hlast := ofSegment?_of_not_end h.not_end
    rw [ofLines, hsegments, List.filterMap_append]
    split <;> rename_i hblank
    · rw [if_pos hblank] at hlast
      rw [List.filterMap_cons_none hlast, List.filterMap_nil, List.append_nil]
      rfl
    · rw [if_neg hblank] at hlast
      rw [List.filterMap_cons_some hlast, List.filterMap_nil]
      rfl

/-- A marker that ends a block makes the open lines and itself an atomic one. -/
theorem ofLines_ended (h : Marker.Opened tool inBlock closed opened)
    (hline : Marker.ofLine? tool line = some .blockEnd) :
    ofLines tool (closed ++ (opened ++ [line])) =
      ofLines tool closed ++ [⟨Text.joinLines (opened ++ [line]), true⟩] := by
  rw [ofLines, h.segments_append, h.segments_ended hline, List.filterMap_append,
    List.filterMap_cons_some (ofSegment?_of_end hline opened)]
  rfl

end Block

namespace BlockBuilder

/-- A builder that took in `closed` and then `opened` holds the blocks of the
former and the lines of the latter. -/
structure Holds (tool : Text) (builder : BlockBuilder) (closed opened : List Text) : Prop where
  blocks : builder.blocks = Block.ofLines tool closed
  segment : builder.segment = opened.reverse
  opened : Marker.Opened tool builder.inBlock closed opened

variable {tool : Text} {builder : BlockBuilder} {closed opened : List Text}

theorem Holds.segmentText (h : Holds tool builder closed opened) :
    builder.segmentText = Text.joinLines opened := by
  rw [BlockBuilder.segmentText, h.segment, List.reverse_reverse]

/-- Closing gives the blocks of all lines. -/
theorem Holds.closed_eq (h : Holds tool builder closed opened) :
    builder.closed = Block.ofLines tool (closed ++ opened) := by
  rw [BlockBuilder.closed, h.segmentText, h.blocks, Block.ofLines_opened h.opened]

/-- Taking in one line moves the last cut only at a marker: in front of one that
begins a block, and behind one that ends one. -/
theorem Holds.push (h : Holds tool builder closed opened) (line : Text) :
    ∃ closed' opened', closed' ++ opened' = (closed ++ opened) ++ [line] ∧
      Holds tool (builder.push tool line) closed' opened' := by
  have happend : (builder.append line).segment = (opened ++ [line]).reverse := by
    rw [append, h.segment, List.reverse_concat]
  rcases hline : Marker.ofLine? tool line with _ | _ | _
  · rw [push_of_none hline]
    exact ⟨closed, opened ++ [line], by simp, h.blocks, happend, h.opened.concat hline⟩
  · rw [push_of_begin hline]
    exact ⟨closed ++ opened, [line], rfl, h.closed_eq, rfl, .of_begin hline _⟩
  · rw [push_of_end hline]
    refine ⟨closed ++ (opened ++ [line]), [], by simp, ?_, rfl, ?_⟩
    · rw [h.blocks, Block.ofLines_ended h.opened hline, BlockBuilder.segmentText, happend,
        List.reverse_reverse]
    · rw [← List.append_assoc]
      exact .of_end hline _

/-- After any lines a builder holds their blocks up to the last cut, and the lines
behind it. -/
theorem exists_holds_pushAll (tool : Text) (lines : List Text) :
    ∃ closed opened, closed ++ opened = lines ∧ Holds tool (pushAll tool {} lines) closed opened := by
  induction lines using List.reverseRecOn with
  | nil =>
      refine ⟨[], [], rfl, rfl, rfl, .outside ?_ (List.forall_mem_nil _)⟩
      intro last hlast
      exact absurd hlast (by simp)
  | append_singleton lines line ih =>
      obtain ⟨closed, opened, rfl, hholds⟩ := ih
      rw [pushAll, List.foldl_concat]
      exact hholds.push line

end BlockBuilder

theorem blocks_splitLines (tool : Text) (lines : List Text) :
    (splitLines tool lines).blocks = Block.ofLines tool lines := by
  obtain ⟨closed, opened, rfl, hholds⟩ := BlockBuilder.exists_holds_pushAll tool lines
  exact hholds.closed_eq

/-- The blocks of any lines are their segments: atomic when the last line is a
marker that ends a block, and else plain, without the plain ones that are blank.
Lines are left unterminated when some marker begins a block and none ends one
behind it; then the last block is the plain one that begins with the last such
marker, and one warning is given, and no other is ever given. -/
theorem splitLines_eq_segments (tool : Text) (lines : List Text) :
    let result := splitLines tool lines
    result.blocks = (Marker.segments tool lines).filterMap (Block.ofSegment? tool) ∧
      (result.unterminated = true ↔ Marker.LeftOpen tool lines) ∧
      (result.unterminated = true →
        ∃ front line rest, lines = front ++ line :: rest ∧
          Marker.ofLine? tool line = some .blockBegin ∧
          (∀ other ∈ rest, Marker.ofLine? tool other = none) ∧
          result.blocks.getLast? = some ⟨Text.joinLines (line :: rest), false⟩) ∧
      result.log = if result.unterminated then [.unterminatedBlock tool] else [] := by
  have hblocks := blocks_splitLines tool lines
  obtain ⟨closed, opened, rfl, hholds⟩ := BlockBuilder.exists_holds_pushAll tool lines
  refine ⟨hblocks, hholds.opened.leftOpen_iff.symm, ?_, rfl⟩
  intro hunterminated
  obtain ⟨line, plain, rfl, hline, hplain⟩ := hholds.opened.exists_begin hunterminated
  have hblank : ¬ Text.allBlank (Text.joinLines (line :: plain)) = true := fun hblank =>
    Marker.not_allBlank_of_ofLine? hline (Text.allBlank_of_allBlank_joinLines hblank)
  refine ⟨closed, line, plain, rfl, hline, hplain, ?_⟩
  rw [hblocks, Block.ofLines_opened hholds.opened, if_neg hblank, List.getLast?_concat]

end SqlScript
