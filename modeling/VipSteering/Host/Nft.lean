import VipSteering.Host.Ip
import VipSteering.Json.Basic
import VipSteering.Text.Split
import Std.Data.ExtTreeMap

namespace VipSteering.Host

structure FilterTable where
  sets : Std.ExtTreeMap String (Std.ExtTreeSet String) := ∅
  /-- The rules of each chain, in order. -/
  chains : Std.ExtTreeMap String (List String) := ∅

abbrev FilterTables := Std.ExtTreeMap String FilterTable

namespace Nft

open Text

inductive Statement where
  | addTable (table : String)
  | addSet (table set : String)
  | addChain (table chain : String)
  | flushChain (table chain : String)
  | addRule (table chain rule : String)
  | addElements (table set : String) (elements : List String)
  | deleteElements (table set : String) (elements : List String)
  deriving DecidableEq, Repr

/-- The text between the first opening and the last closing brace. -/
def bracedChars (line : List Char) : List Char :=
  match cutChars '\x7b' line with
  | none => []
  | some (_, behind) =>
    match cutChars '\x7d' behind.reverse with
    | none => []
    | some (_, inside) => inside.reverse

def elementsOf (line : String) : List String :=
  (((fieldChars (· = ',') (bracedChars line.toList)).map trimChars).filter (· ≠ [])).map
    String.ofList

/-- The rule of a line that adds one: what follows the fifth space. -/
def ruleOf (line : String) : String := String.ofList (afterChars ' ' 5 line.toList)

def parseLine? (line : String) : Option Statement :=
  match words line with
  | ["add", "table", "inet", table] => some (.addTable table)
  | "add" :: "set" :: "inet" :: table :: set :: _ => some (.addSet table set)
  | "add" :: "chain" :: "inet" :: table :: chain :: _ => some (.addChain table chain)
  | ["flush", "chain", "inet", table, chain] => some (.flushChain table chain)
  | "add" :: "rule" :: "inet" :: table :: chain :: _ => some (.addRule table chain (ruleOf line))
  | "add" :: "element" :: "inet" :: table :: set :: _ =>
    some (.addElements table set (elementsOf line))
  | "delete" :: "element" :: "inet" :: table :: set :: _ =>
    some (.deleteElements table set (elementsOf line))
  | _ => none

/-- Adds an entry where there is none. -/
def ensure (key : String) (value : β) (m : Std.ExtTreeMap String β) : Std.ExtTreeMap String β :=
  if key ∈ m then m else m.insert key value

/-- Alters an entry that must exist. -/
def update? (key : String) (change : β → Option β) (m : Std.ExtTreeMap String β) :
    Option (Std.ExtTreeMap String β) :=
  match m[key]? with
  | none => none
  | some value => (change value).map (m.insert key)

def updateTable? (table : String) (change : FilterTable → Option FilterTable) :
    FilterTables → Option FilterTables :=
  update? table change

def updateSet? (table set : String)
    (change : Std.ExtTreeSet String → Option (Std.ExtTreeSet String)) :
    FilterTables → Option FilterTables :=
  updateTable? table fun t => (update? set change t.sets).map fun sets => { t with sets }

def updateChain? (table chain : String) (change : List String → List String) :
    FilterTables → Option FilterTables :=
  updateTable? table fun t =>
    (update? chain (some ∘ change) t.chains).map fun chains => { t with chains }

/-- Deletes elements one after the other; each must be there in its turn. -/
def deleteAll? : List String → Std.ExtTreeSet String → Option (Std.ExtTreeSet String)
  | [], set => some set
  | element :: rest, set => if element ∈ set then deleteAll? rest (set.erase element) else none

/-- What a statement makes of the tables, if what it refers to exists. -/
def effect? : Statement → FilterTables → Option FilterTables
  | .addTable table => some ∘ ensure table { }
  | .addSet table set =>
    updateTable? table fun t => some { t with sets := ensure set ∅ t.sets }
  | .addChain table chain =>
    updateTable? table fun t => some { t with chains := ensure chain [] t.chains }
  | .flushChain table chain => updateChain? table chain fun _ => []
  | .addRule table chain rule => updateChain? table chain (· ++ [rule])
  | .addElements table set elements =>
    updateSet? table set fun present => some (present.insertMany elements)
  | .deleteElements table set elements => updateSet? table set (deleteAll? elements)

def applyLine (line : String) (tables : FilterTables) : Except String FilterTables :=
  match parseLine? line with
  | none => .error ("Error: syntax error: " ++ line)
  | some statement =>
    match effect? statement tables with
    | none => .error ("Error: Could not process rule: " ++ absent ++ ": " ++ line)
    | some tables => .ok tables

/-- The lines in turn. A script is a transaction: if a line of it fails, none has an effect. -/
def applyLines : List String → FilterTables → Except String FilterTables
  | [], tables => .ok tables
  | line :: rest, tables =>
    match applyLine line tables with
    | .error fault => .error fault
    | .ok tables => applyLines rest tables

/-- The lines of a script that hold something. -/
def linesOf (script : String) : List String := ((fields '\n' script).map trim).filter (· ≠ "")

/-- An element is an address, or a range of addresses with a dash. -/
def elementJson (element : String) : Json :=
  match cut '-' element with
  | some (first, last) => .record [("range", .ofStrings [first, last])]
  | none => .ofString element

def setJson (table set : String) (elements : List String) : Json :=
  .record ((if elements.isEmpty then [] else [("elem", .array (elements.map elementJson))]) ++
    [("family", .ofString "inet"), ("flags", .ofStrings ["interval"]), ("name", .ofString set),
      ("table", .ofString table)])

def listing (table set : String) (elements : List String) : String :=
  (Json.record [("nftables", .array [
    .record [("metainfo", .record [("json_schema_version", .ofNat 1)])],
    .record [("set", setJson table set elements)]])]).print

/-- The program. -/
def execute (args : List String) (input : Option String) (tables : FilterTables) :
    Except String (String × FilterTables) :=
  match args with
  | ["-f", "-"] =>
    match applyLines (linesOf (input.getD "")) tables with
    | .error fault => .error fault
    | .ok tables => .ok ("", tables)
  | ["-j", "list", "set", "inet", table, set] =>
    match tables[table]?.bind (·.sets[set]?) with
    | none => .error ("Error: " ++ absent)
    | some elements => .ok (listing table set elements.toList, tables)
  | ["delete", "table", "inet", table] =>
    if table ∈ tables then .ok ("", tables.erase table)
    else .error ("Error: Could not process rule: " ++ absent)
  | other => .error ("unsupported nft command: " ++ quotedList other)

end Nft
end VipSteering.Host
