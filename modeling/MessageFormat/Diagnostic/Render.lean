import MessageFormat.Diagnostic

/-!
# Rendered diagnostics

Three renderings: over several lines with the offending line and a caret under the position, on
one line, and as one JSON object. Long contents can be cut to a length.
-/

namespace MessageFormat

/-- How diagnostics are rendered. -/
inductive Rendering where
  /-- Over several lines, as a compiler shows errors. -/
  | excerpt
  /-- On one line. -/
  | line
  | json
deriving DecidableEq, Repr

namespace Rendering

/-- The name of a rendering. -/
def label : Rendering → String
  | excerpt => "rust"
  | line => "simple"
  | json => "json"

/-- The rendering of a name. -/
def ofLabel? (name : String) : Option Rendering :=
  [excerpt, line, json].find? (·.label == name)

/-- The wording for a name that no rendering has. -/
def unknownMessage (nameLiteral : String) : String :=
  s!"{nameLiteral} is not a valid OutputFormat"

end Rendering

/-- A character inside a JSON string. -/
def jsonChar (c : Char) : String :=
  if c = '"' || c = '\\' then
    String.ofList ['\\', c]
  else if c = '\n' then
    "\\n"
  else if c = '\r' then
    "\\r"
  else if c = '\t' then
    "\\t"
  else if c = '\u0008' then
    "\\b"
  else if c = '\u000c' then
    "\\f"
  else if c.toNat < 0x20 then
    "\\u" ++ String.ofList (List.replicate (4 - (Nat.toDigits 16 c.toNat).length) '0') ++
      String.ofList (Nat.toDigits 16 c.toNat)
  else
    c.toString

/-- A text as a JSON string. -/
def jsonString (text : String) : String :=
  "\"" ++ String.join (text.toList.map jsonChar) ++ "\""

/-- Settings of a renderer. -/
structure Renderer where
  /-- Without a rendering, nothing is rendered. -/
  rendering : Option Rendering := some .excerpt
  /-- The severity is coloured for a terminal. -/
  color : Bool := false
  /-- The number of characters to which contents are cut. -/
  limit : Option Int := none
deriving DecidableEq, Repr

namespace Renderer

/-- Cuts a text that is longer than the limit, and says so. -/
def clip (r : Renderer) (text : String) : String :=
  match r.limit with
  | none => text
  | some limit =>
      if text.toList.length ≤ limit then
        text
      else
        String.ofList (slice text.toList 0 limit) ++ "..."

/-- A labelled part of a diagnostic. -/
structure Detail where
  label : String
  /-- The name of the part in an object. -/
  key : String
  content : String

/-- A part that is shown if it is there and not empty. -/
def detail? (r : Renderer) (label key : String) (content : Option String) : Option Detail :=
  match content with
  | some text => if text.isEmpty then none else some ⟨label, key, r.clip text⟩
  | none => none

/-- The labelled parts after the settings, in the order in which they are shown. -/
def details (r : Renderer) (d : Diagnostic) : List Detail :=
  [r.detail? "expected" "expected" d.expected, r.detail? "found" "found" d.found,
    r.detail? "help" "hint" d.hint].filterMap id

/-- The severity, coloured if the renderer colours. -/
def severity (r : Renderer) (s : Severity) : String :=
  if r.color then
    let tint := match s with
      | .warning => "\x1b[1;33m"
      | _ => "\x1b[1;31m"
    tint ++ s.label ++ "\x1b[0m"
  else
    s.label

/-- The line that a span starts in and a caret under its first character, if the text has that
line. -/
def pointer (r : Renderer) (span : Span) (source : String) : List String :=
  match (linesOf source)[(span.line - 1).toNat]? with
  | none => []
  | some line =>
      let gutter := String.ofList (List.replicate (decimal span.line).toList.length ' ')
      let indent := String.ofList (List.replicate (span.column - 1).toNat ' ')
      ["  " ++ gutter ++ " |",
        "  " ++ decimal span.line ++ " | " ++ r.clip line,
        "  " ++ gutter ++ " | " ++ indent ++ "^"]

/-- The lines that show a diagnostic; with a text, the offending line is among them. -/
def excerptLines (r : Renderer) (d : Diagnostic) (source : Option String) : List String :=
  let head := r.severity d.severity ++ "[" ++ d.code.label ++ "]: " ++ r.clip d.message
  let place := match d.span with
    | none => []
    | some span =>
        ("  --> line " ++ decimal span.line ++ ", column " ++ decimal span.column) ::
          (source.elim [] (r.pointer span))
  let options :=
    if d.options.isEmpty then [] else ["  = options: " ++ String.intercalate ", " d.options]
  let details := (r.details d).map fun detail => "  = " ++ detail.label ++ ": " ++ detail.content
  [head] ++ place ++ options ++ details

/-- A diagnostic over several lines. -/
def excerpt (r : Renderer) (d : Diagnostic) (source : Option String) : String :=
  String.intercalate "\n" (r.excerptLines d source)

/-- A diagnostic as a JSON object. -/
def json (r : Renderer) (d : Diagnostic) : String :=
  let number (key : String) (n : Int) := (key, decimal n)
  let place := match d.span with
    | none => []
    | some span =>
        [number "line" span.line, number "column" span.column, number "start" span.start,
          number "end" span.stop]
  let options :=
    if d.options.isEmpty then
      []
    else
      [("options", "[" ++ String.intercalate ", " (d.options.map jsonString) ++ "]")]
  let fields :=
    [("code", jsonString d.code.label), number "code_value" d.code.value,
      ("message", jsonString (r.clip d.message)), ("severity", jsonString d.severity.label)] ++
    place ++ options ++ (r.details d).map fun detail => (detail.key, jsonString detail.content)
  "\x7b" ++
    String.intercalate ", " (fields.map fun (key, text) => jsonString key ++ ": " ++ text) ++
    "\x7d"

/-- Renders a diagnostic. -/
def render (r : Renderer) (d : Diagnostic) (source : Option String) : Option String :=
  r.rendering.map fun
    | .excerpt => r.excerpt d source
    | .line => d.code.label ++ ": " ++ r.clip d.message
    | .json => r.json d

/-- Renders several diagnostics, one blank line apart. -/
def renderAll (r : Renderer) (ds : List Diagnostic) : Except Misuse String :=
  match ds.mapM fun d => r.render d none with
  | some texts => .ok (String.intercalate "\n\n" texts)
  | none => .error (.notJoinable 0 Value.null.typeName)

end Renderer

/-- The rendering over several lines without colours or cuts. -/
def Diagnostic.excerpt (d : Diagnostic) (source : Option String) : String :=
  Renderer.excerpt {} d source

end MessageFormat
