/-
Lines that come later.  What a line does to a builder does not depend on the blocks
that were found, and a marker between two segments leaves nothing else behind, so
from there on lines are cut as if they were all there is.  Later lines only add to the
blocks that were found; of the blocks of some lines, these are all but the last one
when that one is plain, since a builder that closed a plain segment at a marker holds
the marker's line.
-/
import SqlScript.Proofs.Annotated.Segments

namespace SqlScript

namespace Block

/-- The blocks that no later line can change: all of them, without the last one when
that one is plain. -/
def settled (blocks : List Block) : List Block :=
  if blocks.getLast?.all (·.atomic) then blocks else blocks.dropLast

example : settled [⟨['a'], false⟩, ⟨['b'], true⟩, ⟨['c'], false⟩] =
    [⟨['a'], false⟩, ⟨['b'], true⟩] := by decide

theorem settled_concat_plain (blocks : List Block) (text : Text) :
    settled (blocks ++ [⟨text, false⟩]) = blocks := by
  simp [settled]

/-- Everything up to an atomic block is settled. -/
theorem isPrefix_settled (front rest : List Block) {block : Block} (h : block.atomic = true) :
    front ++ [block] <+: settled (front ++ block :: rest) := by
  rcases List.eq_nil_or_concat rest with rfl | ⟨others, last, rfl⟩
  · simp [settled, h]
  · have hsplit : front ++ block :: others.concat last = (front ++ [block]) ++ others ++ [last] := by
      simp
    rw [settled, hsplit]
    split
    · rw [List.append_assoc (front ++ [block])]
      exact List.prefix_append _ _
    · rw [List.dropLast_concat]
      exact List.prefix_append _ _

end Block

namespace BlockBuilder

variable {tool line : Text} {found : List Block} {builder : BlockBuilder}

theorem pushAll_append (builder : BlockBuilder) (front lines : List Text) :
    builder.pushAll tool (front ++ lines) = (builder.pushAll tool front).pushAll tool lines :=
  List.foldl_append

section Behind

/-- The builder with some blocks in front of those it found. -/
def behind (found : List Block) (builder : BlockBuilder) : BlockBuilder :=
  { builder with blocks := found ++ builder.blocks }

theorem closed_behind : (builder.behind found).closed = found ++ builder.closed := by
  have htext : (builder.behind found).segmentText = builder.segmentText := rfl
  rw [closed, closed, htext]
  split
  · rfl
  · exact List.append_assoc found builder.blocks _

/-- What a line does does not depend on the blocks that were found. -/
theorem push_behind :
    (builder.behind found).push tool line = (builder.push tool line).behind found := by
  rcases hline : Marker.ofLine? tool line with _ | _ | _
  · rw [push_of_none hline, push_of_none hline]
    rfl
  · rw [push_of_begin hline, push_of_begin hline, closed_behind]
    rfl
  · rw [push_of_end hline, push_of_end hline, behind, List.append_assoc]
    rfl

theorem pushAll_behind (lines : List Text) :
    (builder.behind found).pushAll tool lines = (builder.pushAll tool lines).behind found := by
  induction lines generalizing builder with
  | nil => rfl
  | cons line lines ih =>
      rw [pushAll, List.foldl_cons, push_behind]
      exact ih

/-- Behind a marker that ends a block the builder is as new. -/
theorem push_eq_behind_of_end (h : Marker.ofLine? tool line = some .blockEnd) :
    builder.push tool line = ({} : BlockBuilder).behind (builder.push tool line).closed := by
  have hclosed : (builder.push tool line).closed = (builder.push tool line).blocks := by
    rw [push_of_end h]
    rfl
  rw [hclosed, push_of_end h, behind, List.append_nil]

/-- A marker that begins a block does to any builder what it does to a new one. -/
theorem push_eq_behind_of_begin (h : Marker.ofLine? tool line = some .blockBegin) :
    builder.push tool line = (({} : BlockBuilder).push tool line).behind builder.closed := by
  have hnew : ({} : BlockBuilder).closed = [] := rfl
  rw [push_of_begin h, push_of_begin h, behind, hnew, List.append_nil]

/-- Where a marker cuts, the lines behind the cut are taken in as by a new builder. -/
theorem pushAll_append_of_cut {front lines : List Text}
    (hcut : front.getLast?.bind (Marker.ofLine? tool) = some .blockEnd ∨
      lines.head?.bind (Marker.ofLine? tool) = some .blockBegin) :
    pushAll tool {} (front ++ lines) =
      (pushAll tool {} lines).behind (pushAll tool {} front).closed := by
  rw [pushAll_append]
  rcases hcut with hend | hbegin
  · obtain ⟨last, hlast, hline⟩ := Option.bind_eq_some_iff.mp hend
    obtain ⟨before, rfl⟩ := List.getLast?_eq_some_iff.mp hlast
    have hfront : pushAll tool {} (before ++ [last]) =
        ({} : BlockBuilder).behind (pushAll tool {} (before ++ [last])).closed := by
      rw [pushAll_append]
      exact push_eq_behind_of_end hline
    rw [hfront, pushAll_behind, ← hfront]
  · obtain ⟨first, hfirst, hline⟩ := Option.bind_eq_some_iff.mp hbegin
    obtain ⟨others, rfl⟩ := List.head?_eq_some_iff.mp hfirst
    rw [pushAll, List.foldl_cons, push_eq_behind_of_begin hline]
    exact pushAll_behind others

end Behind

section Settled

/-- With a blank segment open, the last block that was found is not plain.  A plain
one is only found in front of a marker, whose line the segment then holds. -/
def Sealed (builder : BlockBuilder) : Prop :=
  Text.allBlank builder.segmentText = true → builder.blocks.getLast?.all (·.atomic) = true

theorem Sealed.push (h : Sealed builder) : Sealed (builder.push tool line) := by
  intro hblank
  rcases hline : Marker.ofLine? tool line with _ | _ | _
  · rw [push_of_none hline] at hblank ⊢
    apply h
    rw [segmentText, Text.allBlank_joinLines] at hblank ⊢
    rw [append, List.reverse_cons, List.all_append, Bool.and_eq_true] at hblank
    exact hblank.1
  · -- The segment now begins with the marker, so it is not blank.
    rw [push_of_begin hline] at hblank
    exact absurd hblank (Marker.not_allBlank_of_ofLine? hline)
  · rw [push_of_end hline]
    simp

theorem Sealed.pushAll (h : Sealed builder) (lines : List Text) :
    Sealed (builder.pushAll tool lines) := by
  induction lines generalizing builder with
  | nil => exact h
  | cons line lines ih => exact ih h.push

theorem sealed_new : Sealed {} := fun _ => rfl

/-- What a sealed builder found are the settled blocks among those it closes with. -/
theorem Sealed.settled_closed (h : Sealed builder) :
    Block.settled builder.closed = builder.blocks := by
  rw [closed]
  split
  · rename_i hblank
    exact if_pos (h hblank)
  · exact Block.settled_concat_plain builder.blocks _

theorem blocks_isPrefix_closed (builder : BlockBuilder) : builder.blocks <+: builder.closed := by
  rw [closed]
  split
  · exact List.prefix_refl _
  · exact List.prefix_append _ _

/-- A line only adds to the blocks that were found. -/
theorem blocks_isPrefix_push : builder.blocks <+: (builder.push tool line).blocks := by
  rcases hline : Marker.ofLine? tool line with _ | _ | _
  · rw [push_of_none hline]
    exact List.prefix_refl _
  · rw [push_of_begin hline]
    exact blocks_isPrefix_closed builder
  · rw [push_of_end hline]
    exact List.prefix_append _ _

theorem blocks_isPrefix_pushAll (lines : List Text) :
    builder.blocks <+: (builder.pushAll tool lines).blocks := by
  induction lines generalizing builder with
  | nil => exact List.prefix_refl _
  | cons line lines ih => exact blocks_isPrefix_push.trans ih

end Settled

end BlockBuilder

open BlockBuilder

/-- Where the first lines end with a marker that ends a block, or the others begin
with one that begins a block, they are cut apart from each other: their blocks follow
one another, and what is left unterminated and reported is what the others leave. -/
theorem splitLines_append_of_marker {tool : Text} {front lines : List Text}
    (hcut : front.getLast?.bind (Marker.ofLine? tool) = some .blockEnd ∨
      lines.head?.bind (Marker.ofLine? tool) = some .blockBegin) :
    splitLines tool (front ++ lines) =
      ⟨(splitLines tool front).blocks ++ (splitLines tool lines).blocks,
        (splitLines tool lines).unterminated, (splitLines tool lines).log⟩ := by
  rw [splitLines, pushAll_append_of_cut hcut, finish, closed_behind]
  rfl

/-- The first cut is in front of a marker, behind a block that is still open; the second
is behind a marker. -/
theorem splitLines_append_behind_open_block :
    let tool := "goose".toList
    let opened := ["x;".toList, "-- +goose StatementBegin".toList, "a;".toList, " ".toList]
    let closed := ["-- goose statementBegin".toList, "b;".toList, "-- +StatementEnd".toList]
    let others := ["".toList, "c;".toList, "-- +StatementBegin".toList]
    closed.head?.bind (Marker.ofLine? tool) = some .blockBegin ∧
      (opened ++ closed).getLast?.bind (Marker.ofLine? tool) = some .blockEnd ∧
      splitLines tool ((opened ++ closed) ++ others) =
        ⟨[⟨"x;".toList, false⟩, ⟨"-- +goose StatementBegin\na;\n ".toList, false⟩,
            ⟨"-- goose statementBegin\nb;\n-- +StatementEnd".toList, true⟩,
            ⟨"\nc;".toList, false⟩, ⟨"-- +StatementBegin".toList, false⟩],
          true, [.unterminatedBlock tool]⟩ := by
  intro tool opened closed others
  have hbegin : closed.head?.bind (Marker.ofLine? tool) = some .blockBegin := by decide
  have hend : (opened ++ closed).getLast?.bind (Marker.ofLine? tool) = some .blockEnd := by decide
  refine ⟨hbegin, hend, ?_⟩
  rw [splitLines_append_of_marker (.inl hend), splitLines_append_of_marker (.inr hbegin)]
  decide

/-- Later lines change at most the last block, and only when it is plain: the other
blocks are the first ones of all lines.  So every atomic block and all blocks in
front of it are there to stay. -/
theorem settled_isPrefix_splitLines (tool : Text) (lines more : List Text) :
    Block.settled (splitLines tool lines).blocks <+: (splitLines tool (lines ++ more)).blocks ∧
      ∀ front block rest, (splitLines tool lines).blocks = front ++ block :: rest →
        block.atomic = true → front ++ [block] <+: (splitLines tool (lines ++ more)).blocks := by
  have hfound : Block.settled (splitLines tool lines).blocks = (pushAll tool {} lines).blocks :=
    (sealed_new.pushAll lines).settled_closed
  have hmore : (pushAll tool {} lines).blocks <+: (pushAll tool {} (lines ++ more)).blocks := by
    rw [pushAll_append]
    exact blocks_isPrefix_pushAll more
  have hsettled : Block.settled (splitLines tool lines).blocks <+:
      (splitLines tool (lines ++ more)).blocks := by
    rw [hfound]
    exact hmore.trans (blocks_isPrefix_closed _)
  refine ⟨hsettled, ?_⟩
  intro front block rest hblocks hatomic
  rw [hblocks] at hsettled
  exact (Block.isPrefix_settled front rest hatomic).trans hsettled

end SqlScript
