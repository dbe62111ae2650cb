/-
What reports look like.  In text form each item stands under a heading with its number,
and as JSON on lines of its own between brackets.
-/
import SqlScript.Proofs.Json.Reading
import SqlScript.Proofs.Text.Trim
import SqlScript.Report

namespace SqlScript

namespace Json

end Json

namespace Report

/-! ### Text -/

example : statementsText ["SELECT 1;".toList, "\n\n".toList, "\nSELECT 2;".toList] =
    "-- statement 1\nSELECT 1;\n-- statement 2\nSELECT 2;\n".toList := by
  decide +kernel

end Report

end SqlScript
