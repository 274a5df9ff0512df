/-
The decoders of configuration files: JSON and YAML, read up to a limit on nesting.
-/
import InferTrace.Config.Load
import InferTrace.Json.Reader
import InferTrace.Yaml.Value

namespace InferTrace.Config

/-- The decoders that the program is run with. -/
def Decoders.standard (limit : Nat) : Decoders where
  json := Json.parse limit Number.maxDigits
  yaml := Yaml.parse limit

end InferTrace.Config
