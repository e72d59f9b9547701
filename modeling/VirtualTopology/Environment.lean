/-!
# Environment

The settings a process is started with. A value that is not the encoding of a text counts as a
setting that was not made.

## Main definitions

- `Setting`, the settings that are looked at, and their names.
- `Environment.read?`: the text of a setting.
-/

namespace VirtualTopology

/-- The settings that are looked at. -/
inductive Setting where
  | images
  | pesPerImage
  | threadCompat
  | traceJson
  | demoSpawn
  /-- What is let through to the log. -/
  | log
deriving DecidableEq, Repr

/-- The name a setting is given under. -/
def Setting.name : Setting → String
  | .images => "PETVM_IMAGES"
  | .pesPerImage => "PETVM_PES_PER_IMAGE"
  | .threadCompat => "PETVM_THREAD_COMPAT"
  | .traceJson => "PETVM_TRACE_JSON"
  | .demoSpawn => "PETVM_DEMO_SPAWN"
  | .log => "RUST_LOG"

/-- Every setting but that of the log, which has its name from elsewhere. -/
def Setting.all : List Setting := [.images, .pesPerImage, .threadCompat, .traceJson, .demoSpawn]

/-- The value of a setting as the system hands it over. -/
inductive RawValue where
  | text (s : String)
  | bytes (b : ByteArray)

/-- The text of a value, if it is the UTF-8 encoding of one. -/
def RawValue.text? : RawValue → Option String
  | .text s => some s
  | .bytes b => String.fromUTF8? b

/-- The settings of a process by name. -/
abbrev Environment := List (String × RawValue)

/-- The text of a setting; nothing when it was not made or is no text. -/
def Environment.read? (env : Environment) (setting : Setting) : Option String :=
  (env.lookup setting.name).bind RawValue.text?

end VirtualTopology
