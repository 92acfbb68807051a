import NeuronFleet.Config.Fleet
import NeuronFleet.Yaml.Emit

/-
  Configurations as YAML documents.

  Reading checks the document against `FleetConfig.schema`; writing
  gives every field of every section in declaration order, unset
  options as `null`, floats in their shortest form (`.nan`, `.inf`,
  `-.inf` for the special values) and strings in a style that reads
  back as the same string.  So a written configuration reads back as
  itself.

  Main definitions:
    * `FleetConfig.readYaml`, `FleetConfig.ofYaml`, `FleetConfig.parse`
    * `FleetConfig.toYaml`
-/

namespace NeuronFleet

namespace FleetConfig

/- Reads a configuration document without validating it. -/
def readYaml (text : String) : Except Yaml.DecodeError FleetConfig :=
  (Yaml.readAs schema text).map ofJson

/- Reads a configuration document without validating it; a document
that does not read is a YAML error. -/
def ofYaml (text : String) : Outcome FleetConfig :=
  match readYaml text with
  | .ok c => .ok c
  | .error e => .error (.yaml e.message)

/- Reads and validates a configuration document; a document that does
not read is a configuration error. -/
def parse (text : String) : Outcome FleetConfig := do
  match readYaml text with
  | .error e => throw (.config ("Failed to parse config: " ++ e.message))
  | .ok c =>
    c.validate
    return c

end FleetConfig

namespace Config

/- How single floats are written in YAML: shortest digits, positional
for leading exponents from -6 to 12, `.0` on integral values. -/
def yamlSingleLayout : Decimal.Layout :=
  { positionalFrom := -6, positionalTo := 12, pointZero := true,
    positiveExponentMark := "e", negativeExponentMark := "e-", pointZeroInExponent := false,
    nanText := ".nan", infinityText := ".inf", negInfinityText := "-.inf", zeroText := "0.0",
    signedZero := true }

/- How double floats are written in YAML: shortest digits, positional
for leading exponents from -5 to 15, `.0` on integral values. -/
def yamlDoubleLayout : Decimal.Layout :=
  { yamlSingleLayout with positionalFrom := -5, positionalTo := 15 }

mutual

/- A data value as a YAML node: strings as strings, everything else
written as it is. -/
def node : Json → Yaml.Node
  | .null => .plain "null"
  | .bool b => .plain (if b then "true" else "false")
  | .int n => .plain (toString n)
  | .double x => .plain (yamlDoubleLayout.writeF64 x)
  | .single x => .plain (yamlSingleLayout.writeF32 x)
  | .str s => .string s
  | .arr items => .sequence (nodes items)
  | .obj ms => .mapping (entries ms)

def nodes : List Json → List Yaml.Node
  | [] => []
  | v :: rest => node v :: nodes rest

def entries : List (String × Json) → List (String × Yaml.Node)
  | [] => []
  | (k, v) :: rest => (k, node v) :: entries rest

end

end Config

/- The configuration as a YAML document. -/
def FleetConfig.toYaml (c : FleetConfig) : String :=
  (Config.node (c.toJson .single)).write

end NeuronFleet
