import FluentWrappers.Options
import FluentWrappers.Source.Name
import FluentWrappers.Synthesis.Session
import FluentWrappers.Text.Unicode

/-!
# The shapes of synthesized types (`SPEC_FULL.md`, 4.2, 4.3, 4.5 and 10.6)

How synthesized types and their members are named, and what an interface, a proxy, a struct clone, an
enumeration clone and a fluent wrapper consist of, once the members are known.
-/

namespace FluentWrappers.Synthesis

/-! ### Names -/

def interfaceName (o : EngineOptions) (source : TypeName) : TypeName :=
  source.withSimple (o.interfacePrefix ++ source.simple)

def proxyName (o : EngineOptions) (source : TypeName) : TypeName :=
  source.withSimple (source.simple ++ o.proxySuffix)

def stripEnd (text ending : String) : String :=
  let cs := text.toList
  let ends := ending.toList
  if ends.isSuffixOf cs then String.ofList (cs.take (cs.length - ends.length)) else text

/-- The name of the fluent wrapper of a proxy: the proxy suffix gives way to the fluent prefix (4.5). -/
def fluentName (o : EngineOptions) (proxy : TypeName) : TypeName :=
  proxy.withSimple (o.fluentPrefix ++ stripEnd proxy.simple o.proxySuffix)

def getterName (property : String) : String := "get_" ++ property

def setterName (property : String) : String := "set_" ++ property

/-- The name of a property's backing field: a low line and the property with its first character in
lower case. -/
def backingField (property : String) : String :=
  match property.toList with
  | first :: rest => String.ofList ('_' :: Text.lowerCase first ++ rest)
  | [] => "_"

/-! ### Bodies -/

def bodyOf (instructions : List Instruction) (returnsValue : Bool) : Except SynthesisError Body :=
  (BodyBuilder.build instructions returnsValue).mapError fun fault => .lowering (.body fault)

/-! ### Interfaces -/

def abstractAccessor (name : String) (params : List ParamSpec) (returns : Option TypeRef) :
    MethodSpec :=
  { name, visibility := .publicAccess, kind := .abstractMethod, params, returns,
    implements := none, specialName := true, body := none }

def abstractAccessors (m : Member) : List MethodSpec :=
  (if m.readable then [abstractAccessor (getterName m.name) [] (some m.type)] else []) ++
    (if m.writable then [abstractAccessor (setterName m.name) [⟨"value", m.type⟩] none] else [])

/-- The interface with a pair of accessors for each member (4.2). -/
def interfaceType (name : TypeName) (source : SourceType) (members : List Member) :
    SynthesizedType :=
  { name, kind := .interface, source := source.name, members,
    methods := members.flatMap abstractAccessors
    properties := members.map fun m =>
      { name := m.name, type := m.type,
        getter := if m.readable then some (getterName m.name) else none
        setter := if m.writable then some (setterName m.name) else none } }

/-! ### Types with backing fields -/

def bindingTo (interface : Option TypeName) (method : String) : Option InterfaceBinding :=
  interface.map fun name => ⟨name, method⟩

def backedAccessors (owner : TypeName) (visibility : Visibility) (interface : Option TypeName)
    (m : Member) : Except SynthesisError (List MethodSpec) := do
  let field : FieldTarget := ⟨owner, backingField m.name⟩
  let getter := getterName m.name
  let setter := setterName m.name
  let getBody ← bodyOf [.loadThis, .loadField field, .ret] true
  let setBody ← bodyOf [.loadThis, .loadArg 1, .storeField field, .ret] false
  return [
    { name := getter, visibility, kind := .instanceMethod, params := [], returns := some m.type,
      implements := bindingTo interface getter, specialName := true, body := some getBody },
    { name := setter, visibility, kind := .instanceMethod, params := [⟨"value", m.type⟩],
      returns := none, implements := bindingTo interface setter, specialName := true,
      body := some setBody }]

/-- A type that stores each member in a field and shows it as a property. Its accessors are internal
if it implements no interface and its source is not public (4.3, visibility rule). -/
def backedType (name : TypeName) (kind : ProductKind) (source : SourceType) (members : List Member)
    (interface : Option TypeName) : Except SynthesisError SynthesizedType := do
  let visibility :=
    if interface.isNone && source.visibility != .publicAccess then Visibility.internalAccess
    else .publicAccess
  let accessors ← members.mapM (backedAccessors name visibility interface)
  return { name, kind, source := source.name, interfaces := interface.toList, members,
           fields := members.map fun m => ⟨backingField m.name, m.type, .privateAccess⟩
           methods := accessors.flatten
           properties := members.map fun m =>
             ⟨m.name, m.type, some (getterName m.name), some (setterName m.name)⟩ }

def constructorOf (params : List ParamSpec) (body : Body) : MethodSpec :=
  { name := constructorName, visibility := .publicAccess, kind := .constructor, params,
    returns := none, implements := none, specialName := true, body := some body }

/-- The proxy: a sealed internal type with backing fields and a constructor. -/
def proxyType (name : TypeName) (source : SourceType) (members : List Member)
    (interface : Option TypeName) : Except SynthesisError SynthesizedType := do
  let backed ← backedType name .proxy source members interface
  let body ← bodyOf [.loadThis, .call MethodTarget.rootConstructor, .ret] false
  return { backed with
    visibility := .internalAccess
    isSealed := true
    methods := constructorOf [] body :: backed.methods }

/-- The clone of a struct: a sealed type with backing fields, as visible as its source (10.6). -/
def structType (source : SourceType) (members : List Member) :
    Except SynthesisError SynthesizedType := do
  let backed ← backedType source.name .structClone source members none
  return { backed with visibility := source.visibility, isSealed := true }

def enumType (source : SourceType) (underlying : Primitive) (literals : List Literal) :
    SynthesizedType :=
  { name := source.name, kind := .enumClone, source := source.name, isSealed := true,
    enumSpec := some ⟨underlying, literals⟩ }

/-! ### Fluent wrappers -/

structure FluentContext where
  name : TypeName
  interface : TypeName
  proxy : TypeName
  objectProperty : String

namespace FluentContext

def object (c : FluentContext) : FieldTarget := ⟨c.name, backingField c.objectProperty⟩

def objectType (c : FluentContext) : TypeRef := .synthesized c.interface

def newConstructor (c : FluentContext) : Except SynthesisError MethodSpec := do
  let body ← bodyOf [.loadThis, .call MethodTarget.rootConstructor, .loadThis,
    .newObj (MethodTarget.constructor c.proxy 0), .storeField c.object, .ret] false
  return constructorOf [] body

def wrapConstructor (c : FluentContext) : Except SynthesisError MethodSpec := do
  let body ← bodyOf [.loadThis, .call MethodTarget.rootConstructor, .loadThis, .loadArg 1,
    .storeField c.object, .ret] false
  return constructorOf [⟨"value", c.objectType⟩] body

def setter (c : FluentContext) (m : Member) : Except SynthesisError MethodSpec := do
  let body ← bodyOf [.loadThis, .loadField c.object, .loadArg 1,
    .callVirt ⟨c.interface, setterName m.name, 1, false, false⟩, .loadThis, .ret] true
  return { name := m.fluentSetter, visibility := .publicAccess, kind := .instanceMethod,
           params := [⟨"value", m.type⟩], returns := some (.synthesized c.name),
           implements := none, specialName := false, body := some body }

def getter (c : FluentContext) (m : Member) : Except SynthesisError MethodSpec := do
  let body ← bodyOf [.loadThis, .loadField c.object,
    .callVirt ⟨c.interface, getterName m.name, 0, true, false⟩, .ret] true
  return { name := m.fluentGetter, visibility := .publicAccess, kind := .instanceMethod,
           params := [], returns := some m.type, implements := none, specialName := false,
           body := some body }

/-- The methods of a member: its setter and, unless it is suppressed, its getter (4.5). -/
def memberMethods (c : FluentContext) (options : TypeOptions) (m : Member) :
    Except SynthesisError (List MethodSpec) := do
  let setter ← c.setter m
  if m.hasFluentGetter options.settersOnly then return [setter, ← c.getter m]
  else return [setter]

def accessor (c : FluentContext) : Except SynthesisError MethodSpec := do
  let body ← bodyOf [.loadThis, .loadField c.object, .ret] true
  return { name := getterName c.objectProperty, visibility := .publicAccess,
           kind := .instanceMethod, params := [], returns := some c.objectType,
           implements := none, specialName := true, body := some body }

def factory (c : FluentContext) (options : TypeOptions) :
    Except SynthesisError (List MethodSpec) := do
  match options.staticFactory.bind Text.notBlank? with
  | none => return []
  | some name =>
    let body ← bodyOf [.newObj (MethodTarget.constructor c.name 0), .ret] true
    return [{ name, visibility := .publicAccess, kind := .staticMethod, params := [],
              returns := some (.synthesized c.name), implements := none, specialName := false,
              body := some body }]

def wantedMethods (c : FluentContext) (options : TypeOptions) (members : List Member) :
    Except SynthesisError (List MethodSpec) := do
  let newConstructor ← c.newConstructor
  let wrapConstructor ← c.wrapConstructor
  let ofMembers ← members.mapM (c.memberMethods options)
  let accessor ← c.accessor
  let factory ← c.factory options
  return [newConstructor, wrapConstructor] ++ ofMembers.flatten ++ [accessor] ++ factory

end FluentContext

/-- The methods with one more, whose name and number of parameters must be new. -/
def addMethod (owner : TypeName) (methods : List MethodSpec) (m : MethodSpec) :
    Except SynthesisError (List MethodSpec) :=
  if methods.any fun old => old.name == m.name && old.arity == m.arity then
    .error (.configuration (.methodDeclaredTwice owner.canonical m.name m.arity))
  else .ok (methods ++ [m])

/-- The fluent wrapper of a proxy that is seen through an interface. -/
def fluentType (c : FluentContext) (proxy : SynthesizedType) (options : TypeOptions) :
    Except SynthesisError SynthesizedType := do
  let wanted ← c.wantedMethods options proxy.members
  let methods ← wanted.foldlM (addMethod c.name) []
  return { name := c.name, kind := .fluent, source := proxy.source, members := proxy.members,
           fields := [⟨c.object.name, c.objectType, .privateAccess⟩]
           methods
           properties := [⟨c.objectProperty, c.objectType, some (getterName c.objectProperty), none⟩] }

end FluentWrappers.Synthesis
