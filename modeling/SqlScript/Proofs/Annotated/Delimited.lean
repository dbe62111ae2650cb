/-
Atomic blocks and their markers.  An atomic block ends with a marker that ends a
block, and has no marker between its first line and its last.  Its first line need
not be a marker: the end of a block makes the lines in front of it atomic whether
or not a block was begun.  All atomic blocks are delimited by both markers exactly
when each end of a block is met while a block is open.
-/
import SqlScript.Proofs.Annotated.Segments

namespace SqlScript

namespace Marker

/-- Lines between two markers, the first of which begins a block and the last of
which ends one. -/
structure Delimited (tool : Text) (span : List Text) : Prop where
  first : span.head?.bind (ofLine? tool) = some .blockBegin
  last : span.getLast?.bind (ofLine? tool) = some .blockEnd
  between : ∀ line ∈ span.tail.dropLast, ofLine? tool line = none

/-- The segments that end with a marker which ends a block. -/
def endedSegments (tool : Text) (lines : List Text) : List (List Text) :=
  (segments tool lines).filter fun segment =>
    segment.getLast?.bind (ofLine? tool) = some .blockEnd

/-- Every marker that ends a block is met while one is open. -/
def EndsMatched (tool : Text) (lines : List Text) : Prop :=
  ∀ front line rest, lines = front ++ line :: rest → ofLine? tool line = some .blockEnd →
    LeftOpen tool front

variable {tool line : Text} {inBlock : Bool} {closed opened : List Text}

namespace Opened

/-- Open lines are no ended segment. -/
theorem endedSegments_opened (h : Opened tool inBlock closed opened) :
    endedSegments tool (closed ++ opened) = endedSegments tool closed := by
  by_cases hempty : opened = []
  · rw [hempty, List.append_nil]
  · have hsegments := h.segments_append []
    rw [List.append_nil, h.segments_opened hempty] at hsegments
    rw [endedSegments, hsegments, List.filter_append, List.filter_cons_of_neg, List.filter_nil,
      List.append_nil]
    · rfl
    · rw [decide_eq_true_eq]
      intro hlast
      obtain ⟨last, hlast, hends⟩ := Option.bind_eq_some_iff.mp hlast
      exact h.not_end last (List.mem_of_getLast? hlast) hends

theorem endedSegments_ended (h : Opened tool inBlock closed opened)
    (hline : ofLine? tool line = some .blockEnd) :
    endedSegments tool (closed ++ (opened ++ [line])) =
      endedSegments tool closed ++ [opened ++ [line]] := by
  rw [endedSegments, h.segments_append, h.segments_ended hline, List.filter_append,
    List.filter_cons_of_pos (by simpa using hline)]
  rfl

/-- One more line ends a segment only when it is the marker for that. -/
theorem mem_endedSegments_concat (h : Opened tool inBlock closed opened) {span : List Text}
    (hspan : span ∈ endedSegments tool ((closed ++ opened) ++ [line])) :
    span ∈ endedSegments tool (closed ++ opened) ∨
      (ofLine? tool line = some .blockEnd ∧ span = opened ++ [line]) := by
  rw [h.endedSegments_opened]
  cases hline : ofLine? tool line with
  | none =>
      rw [List.append_assoc, (h.concat hline).endedSegments_opened] at hspan
      exact .inl hspan
  | some marker =>
      cases marker with
      | blockBegin =>
          rw [(of_begin hline (closed ++ opened)).endedSegments_opened,
            h.endedSegments_opened] at hspan
          exact .inl hspan
      | blockEnd =>
          rw [List.append_assoc, h.endedSegments_ended hline] at hspan
          rcases List.mem_append.mp hspan with hclosed | hended
          · exact .inl hclosed
          · exact .inr ⟨rfl, List.mem_singleton.mp hended⟩

/-- The open lines and the end of a block are delimited when the block was begun. -/
theorem delimited_iff (h : Opened tool inBlock closed opened)
    (hline : ofLine? tool line = some .blockEnd) :
    Delimited tool (opened ++ [line]) ↔ inBlock = true := by
  cases h with
  | outside hclosed hplain =>
      refine ⟨fun hspan => ?_, fun hfalse => absurd hfalse Bool.false_ne_true⟩
      have hfirst := hspan.first
      cases opened with
      | nil => exact absurd (hline.symm.trans hfirst) (by simp)
      | cons first others =>
          exact absurd ((hplain first List.mem_cons_self).symm.trans hfirst) (by simp)
  | inside hbegin hplain =>
      refine ⟨fun _ => rfl, fun _ => ⟨hbegin, ?_, ?_⟩⟩
      · rw [List.getLast?_concat]
        exact hline
      · rw [List.cons_append, List.tail_cons, List.dropLast_concat]
        exact hplain

end Opened

/-- The ended segments are the open lines in front of each end of a block, with
that line. -/
theorem mem_endedSegments_iff {lines span : List Text} :
    span ∈ endedSegments tool lines ↔
      ∃ inBlock closed opened line rest, lines = (closed ++ opened) ++ line :: rest ∧
        Opened tool inBlock closed opened ∧ ofLine? tool line = some .blockEnd ∧
        span = opened ++ [line] := by
  constructor
  · intro hspan
    induction lines using List.reverseRecOn with
    | nil => exact absurd hspan List.not_mem_nil
    | append_singleton lines last ih =>
        obtain ⟨closed, opened, rfl, hholds⟩ := BlockBuilder.exists_holds_pushAll tool lines
        rcases hholds.opened.mem_endedSegments_concat hspan with hbefore | ⟨hlast, rfl⟩
        · obtain ⟨inBlock, closed', opened', line, rest, hlines, hopened, hline, rfl⟩ := ih hbefore
          refine ⟨inBlock, closed', opened', line, rest ++ [last], ?_, hopened, hline, rfl⟩
          rw [hlines, List.append_assoc, List.cons_append]
        · exact ⟨_, closed, opened, last, [], rfl, hholds.opened, hlast, rfl⟩
  · rintro ⟨inBlock, closed, opened, line, rest, rfl, hopened, hline, rfl⟩
    have hcut : ∀ before ∈ (closed ++ (opened ++ [line])).getLast?, ∀ behind ∈ rest.head?,
        cutsBetween tool before behind = true := by
      intro before hbefore behind _
      rw [← List.append_assoc, List.getLast?_concat] at hbefore
      obtain rfl : line = before := Option.some.inj hbefore
      simp [cutsBetween, hline]
    have hsegments := segments_append hcut
    rw [List.append_assoc, List.append_assoc, List.singleton_append, ← List.append_assoc]
      at hsegments
    rw [endedSegments, hsegments, List.filter_append]
    apply List.mem_append_left
    rw [← endedSegments, hopened.endedSegments_ended hline]
    exact List.mem_append_right _ (List.mem_singleton_self _)

end Marker

/-- The atomic blocks are the segments that a marker ends. -/
theorem Block.filter_atomic_ofLines (tool : Text) (lines : List Text) :
    (Block.ofLines tool lines).filter (·.atomic) =
      (Marker.endedSegments tool lines).map fun span => ⟨Text.joinLines span, true⟩ := by
  rw [Block.ofLines, Marker.endedSegments, List.filter_filterMap, ← List.filterMap_eq_map,
    List.filterMap_filter]
  congr 1
  funext segment
  rw [Block.ofSegment?]
  split
  · simp [*]
  · split <;> simp [*]

/-- The atomic blocks of any lines are segments that end with a marker which ends
a block, and hold no other marker behind their first line.  All of them also begin
with a marker which begins a block if and only if every end of a block is met
while a block is open. -/
theorem atomic_delimited_iff (tool : Text) (lines : List Text) :
    (splitLines tool lines).blocks.filter (·.atomic) =
        (Marker.endedSegments tool lines).map (fun span => ⟨Text.joinLines span, true⟩) ∧
      (∀ span ∈ Marker.endedSegments tool lines,
        span.getLast?.bind (Marker.ofLine? tool) = some .blockEnd ∧
          ∀ line ∈ span.tail.dropLast, Marker.ofLine? tool line = none) ∧
      ((∀ span ∈ Marker.endedSegments tool lines, Marker.Delimited tool span) ↔
        Marker.EndsMatched tool lines) := by
  refine ⟨?_, ?_, ?_, ?_⟩
  · rw [blocks_splitLines, Block.filter_atomic_ofLines]
  · intro span hspan
    obtain ⟨inBlock, closed, opened, line, rest, rfl, hopened, hline, rfl⟩ :=
      Marker.mem_endedSegments_iff.mp hspan
    refine ⟨by simpa using hline, ?_⟩
    cases opened with
    | nil => exact List.forall_mem_nil _
    | cons first others => simpa using hopened.tail_plain
  · intro hdelimited front line rest hlines hline
    obtain ⟨closed, opened, rfl, hholds⟩ := BlockBuilder.exists_holds_pushAll tool front
    have hspan := Marker.mem_endedSegments_iff.mpr
      ⟨_, closed, opened, line, rest, hlines, hholds.opened, hline, rfl⟩
    exact hholds.opened.leftOpen_iff.mpr
      ((hholds.opened.delimited_iff hline).mp (hdelimited _ hspan))
  · intro hmatched span hspan
    obtain ⟨inBlock, closed, opened, line, rest, hlines, hopened, hline, rfl⟩ :=
      Marker.mem_endedSegments_iff.mp hspan
    exact (hopened.delimited_iff hline).mpr
      (hopened.leftOpen_iff.mp (hmatched _ line rest hlines hline))

/-- The end of a block that was never begun makes an ordinary line atomic. -/
theorem stray_end_is_atomic :
    let lines := ["a;".toList, "-- +goose StatementEnd".toList]
    (splitLines "goose".toList lines).blocks =
        [⟨"a;\n-- +goose StatementEnd".toList, true⟩] ∧
      Marker.ofLine? "goose".toList "a;".toList = none ∧
      ¬ ∀ span ∈ Marker.endedSegments "goose".toList lines,
        Marker.Delimited "goose".toList span := by
  intro lines
  have hline : Marker.ofLine? "goose".toList "a;".toList = none := by decide
  refine ⟨by decide, hline, ?_⟩
  intro hdelimited
  have hfirst := (hdelimited lines (by decide)).first
  exact absurd (hline.symm.trans hfirst) (by simp)

end SqlScript
