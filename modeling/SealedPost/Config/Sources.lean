import SealedPost.Config.Basic
import SealedPost.Toml.Reader
import SealedPost.Text.Utf8

/-!
# Where settings come from

A file, the variables over it, a flag over both. Only what comes out in the end has to be valid.
`load` is `load_config`, and `ofFile` is `from_toml`.
-/

namespace SealedPost.ClientConfig

/-- Reads settings from a TOML text. -/
def ofToml? (text : String) : Option ClientConfig := (Toml.document? text).bind (ofJson? false)

/-- Reads settings from the bytes of a file; `none` for a file that cannot be read. -/
def ofFile (content : Option Bytes) : Except ConfigError ClientConfig :=
  match content.bind Text.readUtf8? with
  | none => .error .file
  | some cs =>
    match ofToml? (String.ofList cs) with
    | some c => .ok c
    | none => .error .document

/-- The settings with the log level of the flag, where it is given. -/
def applyFlag (logLevel : Option String) (c : ClientConfig) : ClientConfig :=
  { c with logLevel := logLevel.getD c.logLevel }

/-- The settings that all sources give together: a file, if one is named, variables and the flag. -/
def load (file : Option (Option Bytes)) (vars : Variables) (logLevel : Option String) :
    Except ConfigError ClientConfig := do
  let base ← match file with
    | some content => ofFile content
    | none => .ok .default
  match applyVariables vars base with
  | (_, some e) => .error e
  | (c, none) => do
    let c := applyFlag logLevel c
    validate c
    return c

end SealedPost.ClientConfig
