import Aseos.Contracts.DecimalRuntime
import Aseos.Js.Utf16
import Aseos.Policy.Compile

namespace Aseos.Policy

namespace Pattern

open Regex

def isLetter (c : CodeUnit) : Bool := c.isUpper || c.isLower

def isKeyUnit (c : CodeUnit) : Bool := isLetter c || c.isDigit || c.isAny "_-"

-- /^[A-Za-z][A-Za-z0-9_-]*$/u
def mappingKey : Regex CodeUnit := seq (one isLetter) (star (one isKeyUnit))

end Pattern

def startsWith (text : String) (s : JsString) : Bool := (js text).isPrefixOf s

def endsWith (text : String) (s : JsString) : Bool := (js text).isSuffixOf s

structure YamlLine where
  indent : ℕ
  content : JsString
  line : ℕ

-- Limits are numbers, a limit that is not a number is never exceeded.
structure RestrictedYamlLimits where
  maxBytes : JsNumber
  maxLines : JsNumber
  maxDepth : JsNumber
  maxNodes : JsNumber
  maxScalarLength : JsNumber

structure ConfiguredLimits where
  maxBytes : Option JsNumber := none
  maxLines : Option JsNumber := none
  maxDepth : Option JsNumber := none
  maxNodes : Option JsNumber := none
  maxScalarLength : Option JsNumber := none

def ConfiguredLimits.required (configured : ConfiguredLimits) : RestrictedYamlLimits where
  maxBytes := configured.maxBytes.getD (.ofInt 1048576 (by decide))
  maxLines := configured.maxLines.getD (.ofInt 20000 (by decide))
  maxDepth := configured.maxDepth.getD (.ofInt 32 (by decide))
  maxNodes := configured.maxNodes.getD (.ofInt 100000 (by decide))
  maxScalarLength := configured.maxScalarLength.getD (.ofInt 65536 two_pow_sixteen_exact)

def exceeds (n : ℕ) (limit : JsNumber) : Bool :=
  match limit with
  | .finite x => decide (x.value < n)
  | .infinity negative => negative
  | .nan => false

def yamlFailure {α : Type} (code : DiagnosticCode) (line : ℕ) (message : String) :
    Except PolicyFailure α :=
  fail code (js "$/line/" ++ Decimal.digits line) message

-- The lines from an index on stand for the index.
def lineOf (lines : List YamlLine) : ℕ := (lines.head?.map YamlLine.line).getD 1

def indentOf (lines : List YamlLine) : Option ℕ := lines.head?.map YamlLine.indent

section Parsing

variable (numberValue : JsString → JsNumber) (limits : RestrictedYamlLimits)

def parseScalar (source : JsString) (line : ℕ) : Except PolicyFailure JsValue :=
  if exceeds source.length limits.maxScalarLength then
    yamlFailure .YAML_LIMIT_EXCEEDED line "Scalar too long"
  else if source = js "true" then .ok (.bool true)
  else if source = js "false" then .ok (.bool false)
  else if source = js "null" then .ok .null
  else if Json.numberLiteral.test source then
    if (numberValue source).isFinite then .ok (.number (numberValue source))
    else yamlFailure .INVALID_YAML line "Non-finite number"
  else if startsWith "\"" source && endsWith "\"" source then
    match Json.parse numberValue source with
    | some (.string s) => .ok (.string s)
    | some _ => yamlFailure .INVALID_YAML line "Expected string scalar"
    | none => yamlFailure .INVALID_YAML line "Invalid JSON string scalar"
  else
    yamlFailure .INVALID_YAML line "Only JSON double-quoted strings and JSON scalars are allowed"

def isColon (c : CodeUnit) : Bool := c.val == 58

def keyOf (content : JsString) : JsString := content.takeWhile (!isColon ·)

def splitMapping (content : JsString) (line : ℕ) : Except PolicyFailure (JsString × JsString) :=
  match content.dropWhile (!isColon ·) with
  | [] => yamlFailure .INVALID_YAML line "Expected mapping entry"
  | _ :: rest =>
      if keyOf content = [] then yamlFailure .INVALID_YAML line "Expected mapping entry"
      else if Pattern.mappingKey.test (keyOf content) = false ∨ keyOf content ∈ protectedKeys then
        yamlFailure .INVALID_YAML line "Unsafe mapping key"
      else if rest ≠ [] ∧ startsWith " " rest = false then
        yamlFailure .INVALID_YAML line "Mapping values require one separating space"
      else .ok (keyOf content, JsString.trimStart rest)

-- /^[A-Za-z][A-Za-z0-9_-]*:/u
def opensMapping (rest : JsString) : Bool :=
  match rest with
  | [] => false
  | c :: rest => Pattern.isLetter c && (rest.dropWhile Pattern.isKeyUnit).head?.any isColon

structure ParseResult (α : Type) where
  value : α
  next : List YamlLine
  nodes : ℕ

abbrev Entries := List (JsString × JsValue)

def hasKey (object : Entries) (key : JsString) : Bool := object.any fun e => e.1 = key

def mergeTail (line : ℕ) (object : Entries) : Entries → Except PolicyFailure Entries
  | [] => .ok object
  | entry :: tail =>
      if hasKey object entry.1 then yamlFailure .INVALID_YAML line "Duplicate mapping key"
      else mergeTail line (object ++ [entry]) tail

section Members

-- The parser of the nested nodes, from the lines, the indentation, the depth and the counter.
variable (node : List YamlLine → ℕ → ℕ → ℕ → Except PolicyFailure (ParseResult JsValue))

-- The value of a mapping entry, whose mapping has the indentation and the depth given.
def parseMember (scalar : JsString) (line : ℕ) (following : List YamlLine) (indent depth nodes : ℕ) :
    Except PolicyFailure (ParseResult JsValue) :=
  if scalar = [] then
    if indentOf following ≠ some (indent + 2) then
      yamlFailure .INVALID_YAML line "Missing mapping child"
    else node following (indent + 2) (depth + 1) nodes
  else do
    let value ← parseScalar numberValue limits scalar line
    return ⟨value, following, nodes⟩

def continuesMapping (following : List YamlLine) (indent : ℕ) : Bool :=
  following.head?.any fun line => line.indent = indent && !startsWith "-" line.content

-- What follows the marker of a sequence item.
def parseItem (rest : JsString) (line : ℕ) (following : List YamlLine) (indent depth nodes : ℕ) :
    Except PolicyFailure (ParseResult JsValue) :=
  if rest = [] then
    if indentOf following ≠ some (indent + 2) then
      yamlFailure .INVALID_YAML line "Missing sequence child"
    else node following (indent + 2) (depth + 1) nodes
  else if opensMapping rest then do
    let (key, scalar) ← splitMapping rest line
    let first ← parseMember numberValue limits node scalar line following (indent + 2) (depth + 1)
      nodes
    if continuesMapping first.next (indent + 2) then
      let tail ← node first.next (indent + 2) (depth + 1) first.nodes
      match tail.value.isRecord with
      | none => yamlFailure .INVALID_YAML line "Invalid sequence mapping"
      | some props =>
          let object ← mergeTail line [(key, first.value)] (Props.entries props)
          return ⟨.record object, tail.next, tail.nodes⟩
    else
      return ⟨.record [(key, first.value)], first.next, first.nodes⟩
  else do
    let value ← parseScalar numberValue limits rest line
    return ⟨value, following, nodes⟩

end Members

mutual

-- The fuel is twice the number of the lines: each nesting and each line takes one.
def parseYamlNode : ℕ → List YamlLine → ℕ → ℕ → ℕ → Except PolicyFailure (ParseResult JsValue)
  | 0, _, _, _, _ => yamlFailure .INVALID_YAML 1 "Missing YAML line"
  | fuel + 1, lines, indent, depth, nodes =>
      if exceeds depth limits.maxDepth then
        yamlFailure .YAML_LIMIT_EXCEEDED (lineOf lines) "Depth limit"
      else if indentOf lines ≠ some indent then
        yamlFailure .INVALID_YAML (lineOf lines) "Invalid indentation"
      else if lines.head?.any (fun line => startsWith "-" line.content) then do
        let items ← parseItems fuel lines indent depth nodes
        return ⟨Json.arrayOf items.value, items.next, items.nodes⟩
      else do
        let object ← parseEntries fuel [] lines indent depth nodes
        return ⟨.record object.value, object.next, object.nodes⟩
  termination_by structural fuel => fuel

def parseItems : ℕ → List YamlLine → ℕ → ℕ → ℕ →
    Except PolicyFailure (ParseResult (List JsValue))
  | 0, _, _, _, _ => yamlFailure .INVALID_YAML 1 "Missing YAML line"
  | _ + 1, [], _, _, nodes => .ok ⟨[], [], nodes⟩
  | fuel + 1, line :: lines, indent, depth, nodes =>
      if line.indent ≠ indent ∨ startsWith "-" line.content = false then
        .ok ⟨[], line :: lines, nodes⟩
      else if line.content ≠ js "-" ∧ startsWith "- " line.content = false then
        yamlFailure .INVALID_YAML line.line "Sequence marker requires a space"
      else if exceeds (nodes + 1) limits.maxNodes then
        yamlFailure .YAML_LIMIT_EXCEEDED line.line "Node limit"
      else do
        let item ← parseItem numberValue limits (parseYamlNode fuel) (line.content.drop 2) line.line
          lines indent depth (nodes + 1)
        let items ← parseItems fuel item.next indent depth item.nodes
        return ⟨item.value :: items.value, items.next, items.nodes⟩
  termination_by structural fuel => fuel

def parseEntries : ℕ → Entries → List YamlLine → ℕ → ℕ → ℕ →
    Except PolicyFailure (ParseResult Entries)
  | 0, _, _, _, _, _ => yamlFailure .INVALID_YAML 1 "Missing YAML line"
  | _ + 1, object, [], _, _, nodes => .ok ⟨object, [], nodes⟩
  | fuel + 1, object, line :: lines, indent, depth, nodes =>
      if line.indent ≠ indent ∨ startsWith "-" line.content = true then
        .ok ⟨object, line :: lines, nodes⟩
      else if exceeds (nodes + 1) limits.maxNodes then
        yamlFailure .YAML_LIMIT_EXCEEDED line.line "Node limit"
      else do
        let (key, scalar) ← splitMapping line.content line.line
        if hasKey object key then
          yamlFailure .INVALID_YAML line.line "Duplicate mapping key"
        else
          let member ← parseMember numberValue limits (parseYamlNode fuel) scalar line.line lines
            indent depth (nodes + 1)
          parseEntries fuel (object ++ [(key, member.value)]) member.next indent depth member.nodes
  termination_by structural fuel => fuel

end

-- /:\s*[|>]/u
def opensBlockScalar (content : JsString) : Bool :=
  content.tails.any fun s =>
    match s with
    | [] => false
    | c :: rest => isColon c && (rest.dropWhile CodeUnit.isSpace).head?.any (CodeUnit.isAny "|>")

-- /^(?:---|\.\.\.|%|!|&|\*|<<:)/u
def opensDirective (content : JsString) : Bool :=
  ["---", "...", "%", "!", "&", "*", "<<:"].any fun text => startsWith text content

def unsupported (content : JsString) : Bool :=
  opensDirective content || content.any (CodeUnit.isAny "'[\x7b") || opensBlockScalar content

def ignored (raw : JsString) : Bool := raw.trim = [] || startsWith "#" raw.trimStart

def indentation (raw : JsString) : ℕ := raw.length - raw.trimStart.length

def yamlLines : ℕ → List JsString → Except PolicyFailure (List YamlLine)
  | _, [] => .ok []
  | index, raw :: raws =>
      if ignored raw then yamlLines (index + 1) raws
      else if raw.any (fun c => c.val == 9) then
        yamlFailure .INVALID_YAML (index + 1) "Tabs are forbidden"
      else if indentation raw % 2 ≠ 0 then
        yamlFailure .INVALID_YAML (index + 1) "Indentation must use two spaces"
      else if unsupported (raw.drop (indentation raw)) then
        yamlFailure .INVALID_YAML (index + 1) "Unsupported YAML feature"
      else do
        let lines ← yamlLines (index + 1) raws
        return ⟨indentation raw, raw.drop (indentation raw), index + 1⟩ :: lines

-- `source.replaceAll("\r\n", text)`
def replaceCrLf (text : JsString) : JsString → JsString
  | [] => []
  | [c] => [c]
  | c :: d :: s =>
      if c.val = 13 ∧ d.val = 10 then text ++ replaceCrLf text s else c :: replaceCrLf text (d :: s)

def mixedLineEnds (source : JsString) : Bool :=
  (replaceCrLf [] source).any (fun c => c.val == 13) ||
    (source.includes (js "\r\n") && (replaceCrLf [] source).any (fun c => c.val == 10))

def rawLines (source : JsString) : List JsString := (replaceCrLf (js "\n") source).splitOn 10

def parseLimited (source : JsString) : Except PolicyFailure JsValue :=
  if exceeds source.utf8.length limits.maxBytes then
    yamlFailure .YAML_LIMIT_EXCEEDED 1 "Byte limit"
  else if mixedLineEnds source then
    yamlFailure .INVALID_YAML 1 "Mixed or lone carriage return"
  else if exceeds (rawLines source).length limits.maxLines then
    yamlFailure .YAML_LIMIT_EXCEEDED 1 "Line limit"
  else do
    let lines ← yamlLines 0 (rawLines source)
    if indentOf lines ≠ some 0 then
      yamlFailure .INVALID_YAML 1 "Empty or indented root"
    else
      let parsed ← parseYamlNode numberValue limits (2 * lines.length + 2) lines 0 0 0
      if parsed.next ≠ [] then
        yamlFailure .INVALID_YAML (lineOf parsed.next) "Trailing or inconsistent content"
      else
        assertPolicyJson parsed.value (js "$")
        return parsed.value

end Parsing

def parseRestrictedPolicyYaml (runtime : JsonRuntime) (source : JsString)
    (configuredLimits : ConfiguredLimits) : Except PolicyFailure JsValue :=
  parseLimited runtime.numberValue configuredLimits.required source

end Aseos.Policy
