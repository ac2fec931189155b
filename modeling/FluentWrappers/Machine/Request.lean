import FluentWrappers.Machine.Access
import FluentWrappers.Machine.Exchange
import FluentWrappers.Report

/-!
# Requests from outside the machine

A program outside sends requests as JSON. All values of a request are read before it is performed, so
a request that mentions an object with a number that was not given changes nothing.
-/

namespace FluentWrappers.Machine

/-- What can be asked of a loaded artifact. -/
inductive Request where
  | new (type : String) (args : List Value)
  | invoke (on : Value) (name : String) (args : List Value)
  | invokeStatic (type name : String) (args : List Value)
  | getProperty (on : Value) (name : String)
  | setProperty (on : Value) (name : String) (value : Value)
  /-- The value of an enumeration's literal. -/
  | literal (type name : String)
  /-- The value of a field, whatever its visibility. -/
  | getField (ref : Nat) (name : String)
  | setField (ref : Nat) (name : String) (value : Value)
  | same (a b : Value)
  | describe (v : Value)
  | typeKind (name : String)
  | summary
  | typeCount
  /-- Sets and then reads properties of a late-bound wrapper, of a new instance or of a value. -/
  | lateBound (create : Option String) (on : Value) (sets : List (String × Value))
      (gets : List String)
  deriving DecidableEq, Repr

/-- Why a request is not performed or fails. -/
inductive Refusal where
  | unknownRequest
  | unknownObject
  | notAnObject
  | failed (cause : RunError)
  deriving DecidableEq, Repr

namespace Request

/-! ### Reading requests -/

def wordOf (j : Json) (name : String) : String := ((j.field? name).bind Json.text?).getD ""

def valueOf (e : Exchange) (j : Json) (name : String) : Except Refusal Value :=
  match e.read? ((j.field? name).getD .null) with
  | some v => .ok v
  | none => .error .unknownObject

def itemsOf (j : Json) (name : String) : List Json := ((j.field? name).bind Json.items?).getD []

def valuesOf (e : Exchange) (j : Json) (name : String) : Except Refusal (List Value) :=
  match (itemsOf j name).mapM e.read? with
  | some values => .ok values
  | none => .error .unknownObject

def pairOf (e : Exchange) : Json → Except Refusal (String × Value)
  | .array [.text property, j] =>
    match e.read? j with
    | some v => .ok (property, v)
    | none => .error .unknownObject
  | _ => .error .unknownRequest

def objectOf (e : Exchange) (j : Json) (name : String) : Except Refusal Nat := do
  match (← valueOf e j name).object? with
  | some ref => return ref
  | none => throw .notAnObject

/-- Reads a request. -/
def read (e : Exchange) (j : Json) : Except Refusal Request := do
  let name := wordOf j "name"
  let type := wordOf j "type"
  match wordOf j "do" with
  | "new" => return .new type (← valuesOf e j "args")
  | "invoke" => return .invoke (← valueOf e j "on") name (← valuesOf e j "args")
  | "static" => return .invokeStatic type name (← valuesOf e j "args")
  | "get" => return .getProperty (← valueOf e j "on") name
  | "set" => return .setProperty (← valueOf e j "on") name (← valueOf e j "value")
  | "enum" => return .literal type name
  | "get_field" => return .getField (← objectOf e j "on") name
  | "set_field" =>
    let value ← valueOf e j "value"
    return .setField (← objectOf e j "on") name value
  | "eq" => return .same (← valueOf e j "a") (← valueOf e j "b")
  | "kind" => return .describe (← valueOf e j "on")
  | "type" => return .typeKind name
  | "debug" => return .summary
  | "artifact" => return .typeCount
  | "dyn" =>
    let sets ← (itemsOf j "sets").mapM (pairOf e)
    return .lateBound ((j.field? "create").bind Json.text?) (← valueOf e j "on") sets
      ((itemsOf j "gets").filterMap Json.text?)
  | _ => throw .unknownRequest

/-! ### Performing requests -/

def showing (e : Exchange) (run : Run Value) : Except RunError Json × Exchange :=
  match run e.heap with
  | (.error fault, heap) => (.error fault, { e with heap })
  | (.ok value, heap) =>
    let (j, e) := { e with heap }.write value
    (.ok j, e)

/-- The properties of a late-bound wrapper after others were set, and the wrapper's object. -/
def lateBoundRun (m : Loaded) (create : Option String) (on : Value) (sets : List (String × Value))
    (gets : List String) : Run (List Value × Value) := do
  let w ← match create with
    | some type => LateBound.create m type
    | none => LateBound.wrap on
  let w ← sets.foldlM (fun w (property, value) => w.set m property value) w
  return (← gets.mapM (w.get m), w.object)

def perform (m : Loaded) (e : Exchange) : Request → Except RunError Json × Exchange
  | .new type args => showing e (m.newObject type args)
  | .invoke on name args => showing e (m.invoke on name args)
  | .invokeStatic type name args => showing e (m.invokeStatic type name args)
  | .getProperty on name => showing e (m.getProperty on name)
  | .setProperty on name value =>
    match m.setProperty on name value e.heap with
    | (result, heap) => (result.map fun () => .null, { e with heap })
  | .literal type name => showing e (m.enumValue type name)
  | .getField ref name =>
    match (e.heap.get? ref).bind (·.get? name) with
    | none => (.ok .null, e)
    | some value =>
      let (j, e) := e.write value
      (.ok (.object [("value", j)]), e)
  | .setField ref name value =>
    match e.heap.setField? ref name value with
    | some heap => (.ok (.bool true), { e with heap })
    | none => (.ok (.bool false), e)
  | .same a b => (.ok (.bool (a.same b)), e)
  | .describe v => (.ok (.object [("kind", .text v.kindName), ("null", .bool v.isNull),
      ("int", Json.ofOption (fun i => .text (toString i.toInt)) v.int?)]), e)
  | .typeKind name => (.ok (Json.ofOption (fun t : TypeDefinition => .text t.kind.keyword)
      (m.artifact.findType? name)), e)
  | .summary => (.ok (.text m.summary), e)
  | .typeCount => (.ok (.int m.artifact.types.length), e)
  | .lateBound create on sets gets =>
    match lateBoundRun m create on sets gets e.heap with
    | (.error fault, heap) => (.error fault, { e with heap })
    | (.ok (values, object), heap) =>
      let (shown, e) := { e with heap }.writeAll values
      let (object, e) := e.write object
      (.ok (.object [("gets", .array shown), ("object", object), ("same", .bool true)]), e)

end Request

def Exchange.ask (m : Loaded) (e : Exchange) (j : Json) : Except Refusal Json × Exchange :=
  match Request.read e j with
  | .error refusal => (.error refusal, e)
  | .ok request =>
    let (answer, e) := request.perform m e
    (answer.mapError .failed, e)

end FluentWrappers.Machine
