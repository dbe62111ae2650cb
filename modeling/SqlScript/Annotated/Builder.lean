/-
Cutting lines into blocks, one line at a time.  A marker that begins a block
closes the segment in front of it, and a marker that ends one closes the
segment it stands in.
-/
import SqlScript.Annotated.Block
import SqlScript.Log

namespace SqlScript

/-- Blocks found so far and the lines that belong to none yet. -/
structure BlockBuilder where
  blocks : List Block := []
  /-- The lines of the open segment, the last one first. -/
  segment : List Text := []
  /-- Whether the last marker began a block. -/
  inBlock : Bool := false
deriving Repr, DecidableEq

/-- The blocks of some lines. -/
structure AnnotatedSplit where
  blocks : List Block
  /-- Whether the lines ended inside a block that a marker had begun. -/
  unterminated : Bool
  log : List Record
deriving Repr, DecidableEq

namespace BlockBuilder

/-- The text of the open segment. -/
def segmentText (builder : BlockBuilder) : Text :=
  Text.joinLines builder.segment.reverse

/-- The blocks, and the open segment as a plain one unless it is blank. -/
def closed (builder : BlockBuilder) : List Block :=
  if Text.allBlank builder.segmentText then builder.blocks
  else builder.blocks ++ [⟨builder.segmentText, false⟩]

/-- Add a line to the open segment. -/
def append (builder : BlockBuilder) (line : Text) : BlockBuilder :=
  { builder with segment := line :: builder.segment }

/-- Take in one line. -/
def push (tool : Text) (builder : BlockBuilder) (line : Text) : BlockBuilder :=
  match Marker.ofLine? tool line with
  | some .blockBegin => ⟨builder.closed, [line], true⟩
  | some .blockEnd =>
      ⟨builder.blocks ++ [⟨(builder.append line).segmentText, true⟩], [], false⟩
  | none => builder.append line

/-- The result when no line follows. -/
def finish (tool : Text) (builder : BlockBuilder) : AnnotatedSplit :=
  ⟨builder.closed, builder.inBlock,
    if builder.inBlock then [.unterminatedBlock tool] else []⟩

/-- Take in some lines. -/
def pushAll (tool : Text) (builder : BlockBuilder) (lines : List Text) : BlockBuilder :=
  lines.foldl (push tool) builder

variable {tool line : Text} {builder : BlockBuilder}

theorem push_of_begin (h : Marker.ofLine? tool line = some .blockBegin) :
    builder.push tool line = ⟨builder.closed, [line], true⟩ := by
  simp [push, h]

theorem push_of_end (h : Marker.ofLine? tool line = some .blockEnd) :
    builder.push tool line =
      ⟨builder.blocks ++ [⟨(builder.append line).segmentText, true⟩], [], false⟩ := by
  simp [push, h]

theorem push_of_none (h : Marker.ofLine? tool line = none) :
    builder.push tool line = builder.append line := by
  simp [push, h]

end BlockBuilder

/-- Cut lines into blocks. -/
def splitLines (tool : Text) (lines : List Text) : AnnotatedSplit :=
  (BlockBuilder.pushAll tool {} lines).finish tool

/-- Cut a script into blocks. -/
def splitAnnotated (tool script : Text) : AnnotatedSplit :=
  splitLines tool (Text.lines script)

end SqlScript
