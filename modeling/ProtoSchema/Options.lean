import ProtoSchema.Text.Blank
import ProtoSchema.Text.Split

set_option autoImplicit false

/-! # Options of a generation run -/

namespace ProtoSchema

/-- What to generate and what to report. -/
structure Options where
  /-- Also generate messages whose name marks a response. -/
  includeResponses : Bool := false
  /-- Report the files that are generated or skipped. -/
  verbose : Bool := false
deriving DecidableEq

namespace Options

/-- Apply one `key=value` item of a parameter. Unknown keys are ignored, and only the exact value
    `true` switches an option on. -/
def applyItem (options : Options) (item : String) : Options :=
  let entry := Text.cut '=' (Text.trim item)
  if Text.trim entry.1 = "include_responses" then
    { options with includeResponses := Text.trim entry.2 = "true" }
  else options

/-- The options that a parameter text sets: comma separated items, of which later ones win. -/
def ofParameter (parameter : String) : Options :=
  (Text.split ',' parameter).foldl applyItem {}

end Options

end ProtoSchema
