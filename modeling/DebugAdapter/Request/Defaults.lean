import DebugAdapter.Json.Decode
import DebugAdapter.Json.Stream
import DebugAdapter.Text.Blank
/-!
# Request defaults

An API script expects to see a request. `RequestDefaults` holds what is configured for it when
there is none, and `RequestDefaults.environment` the variables that the script starts with.
-/

namespace DebugAdapter

/-- A header of a request. -/
structure Header where
  name : String
  value : Json

/-- A parameter of a request. -/
structure Parameter where
  name : String
  value : Option Json
  defaultValue : Option Json

/-- What a script is to see of a request. -/
structure RequestDefaults where
  headers : List Header := []
  /-- The parameters in the path. -/
  paths : List Parameter := []
  /-- The parameters in the query. -/
  parameters : List Parameter := []
  requestBody : Option String := none
  defaultDataSource : Option String := none
  deriving Inhabited

/-- The configured value, or the default one when there is none. -/
def Parameter.effectiveValue (p : Parameter) : Json :=
  ((p.value.filter fun v => !v.isNull).or p.defaultValue).getD .null

namespace RequestDefaults

/-! ## Reading values -/

/-- Takes a header. -/
def headerShape : Json.RecordShape Header where
  name := "Header"
  blank := ⟨"", .null⟩
  fields := [
    .of "name" true .text fun a r => { r with name := a },
    .of "value" false .any fun a r => { r with value := a }]

/-- Takes a parameter. -/
def parameterShape : Json.RecordShape Parameter where
  name := "Parameter"
  blank := ⟨"", none, none⟩
  fields := [
    .of "name" true .text fun a r => { r with name := a },
    .of "value" false (.optional .any) fun a r => { r with value := a },
    .of "defaultValue" false (.optional .any) fun a r => { r with defaultValue := a }]

/-- Takes request defaults. -/
def shape : Json.RecordShape RequestDefaults where
  name := "RequestDefaults"
  blank := {}
  fields := [
    .of "headers" false (.list headerShape.decode) fun a r => { r with headers := a },
    .of "paths" false (.list parameterShape.decode) fun a r => { r with paths := a },
    .of "parameters" false (.list parameterShape.decode) fun a r => { r with parameters := a },
    .of "requestBody" false (.optional .text) fun a r => { r with requestBody := a },
    .of "defaultDataSource" false (.optional .text) fun a r => { r with defaultDataSource := a }]

/-- The defaults that a value holds. -/
def ofJson (v : Json) : Except Json.DecodeError RequestDefaults :=
  shape.decode v

/-! ## Reading text -/

/-- Takes a header off a text. -/
def headerTextShape : Json.StreamDecoder.Shape Header where
  name := "Header"
  blank := ⟨"", .null⟩
  fields := [
    .of "name" true .text fun a r => { r with name := a },
    .of "value" false .any fun a r => { r with value := a }]

/-- Takes a parameter off a text. -/
def parameterTextShape : Json.StreamDecoder.Shape Parameter where
  name := "Parameter"
  blank := ⟨"", none, none⟩
  fields := [
    .of "name" true .text fun a r => { r with name := a },
    .of "value" false (.optional .any) fun a r => { r with value := a },
    .of "defaultValue" false (.optional .any) fun a r => { r with defaultValue := a }]

/-- Takes request defaults off a text. -/
def textShape : Json.StreamDecoder.Shape RequestDefaults where
  name := "RequestDefaults"
  blank := {}
  fields := [
    .of "headers" false (.list headerTextShape.decode) fun a r => { r with headers := a },
    .of "paths" false (.list parameterTextShape.decode) fun a r => { r with paths := a },
    .of "parameters" false (.list parameterTextShape.decode) fun a r => { r with parameters := a },
    .of "requestBody" false (.optional .text) fun a r => { r with requestBody := a },
    .of "defaultDataSource" false (.optional .text) fun a r => { r with defaultDataSource := a }]

/-- The defaults that a text holds, or the message of what is wrong with it. -/
def ofText (text : String) : Except String RequestDefaults :=
  Json.StreamDecoder.run textShape.decode (Utf8.ofString text)

/-! ## Values and variables -/

/-- A value that may be missing. -/
def optionalJson : Option Json → Json :=
  (·.getD .null)

/-- A text that may be missing. -/
def optionalText (t : Option String) : Json :=
  optionalJson (t.map .string)

/-- The value for a header. -/
def headerJson (h : Header) : Json :=
  Json.mk [("name", .string h.name), ("value", h.value)]

/-- The value for a parameter. -/
def parameterJson (p : Parameter) : Json :=
  Json.mk [("name", .string p.name), ("value", optionalJson p.value),
    ("defaultValue", optionalJson p.defaultValue)]

/-- The value that holds all the defaults. -/
def toJson (d : RequestDefaults) : Json :=
  Json.mk [
    ("headers", .array (d.headers.map headerJson)),
    ("paths", .array (d.paths.map parameterJson)),
    ("parameters", .array (d.parameters.map parameterJson)),
    ("requestBody", optionalText d.requestBody),
    ("defaultDataSource", optionalText d.defaultDataSource)]

/-- What a script sees of the body of a request: an object when the text is one. -/
def bodyValue (body : String) : Json :=
  match Json.ofText? body with
  | some (.object entries) => .object entries
  | _ => .string body

/-- The values of the parameters by name. -/
def parameterTable (ps : List Parameter) : Json :=
  Json.mk (ps.map fun p => (p.name, p.effectiveValue))

/-- The variables that a script with these defaults starts with. -/
def environment (d : RequestDefaults) : Json.Fields :=
  let request := [
    ("path", parameterTable d.paths),
    ("header", Json.mk (d.headers.map fun h => (h.name, h.value))),
    ("query", parameterTable d.parameters)]
  let body := (d.requestBody.filter fun b => !(Text.trim b).isEmpty).toList.map fun b =>
    ("body", bodyValue b)
  let source := d.defaultDataSource.toList.map fun s => ("default_data_source", Json.string s)
  request ++ body ++ source

end RequestDefaults

end DebugAdapter
