import MixedInteger.Json.Form
import MixedInteger.Settings

/-!
# JSON form of settings
-/

namespace MixedInteger

instance : Json.Form Settings where
  write settings := .ofFields
    [("model_path", .ofString settings.modelPath), ("quiet", .boolean settings.quiet)]
  read? room value := do
    let [modelPath, quiet] ← Json.fields? ["model_path", "quiet"] room value | none
    let modelPath ← Json.required Json.string? modelPath
    let quiet ← Json.required Json.boolean? quiet
    return ⟨modelPath, quiet⟩

end MixedInteger
