import FluentWrappers.Proofs.Json.Record
import FluentWrappers.Proofs.Source.Name
import FluentWrappers.Source.Record

/-!
# Source types that are read back

The record of a source type holds all of it, but a name is one text that is split again at its last
dot. So a source type is read back from its record if and only if no simple name in it holds a dot;
a source type that was read from a record is such a type.
-/

namespace FluentWrappers

namespace TypeName

theorem ofJson?_toJson {n : TypeName} (dotless : n.Dotless) : ofJson? n.toJson = some n :=
  congrArg some (parse_canonical dotless)

theorem optional?_toJson {n : TypeName} (dotless : n.Dotless) :
    Json.optional? ofJson? n.toJson = some (some n) :=
  congrArg (Option.map some) (ofJson?_toJson dotless)

theorem dotless_of_ofJson? {j : Json} {n : TypeName} (read : ofJson? j = some n) : n.Dotless := by
  obtain ⟨canonical, -, rfl⟩ := Option.map_eq_some_iff.1 read
  exact dotless_parse canonical

end TypeName

theorem Primitive.ofJson?_toJson (p : Primitive) : ofJson? p.toJson = some p := ofName?_name p

theorem Visibility.ofJson?_toJson (v : Visibility) : ofJson? v.toJson = some v := by
  cases v <;> decide +kernel

namespace Json

theorem optional?_text (s : String) : optional? text? (.text s) = some (some s) := rfl

theorem optional?_bool (b : Bool) : optional? bool? (.bool b) = some (some b) := rfl

theorem int64?_toInt (i : Int64) : int64? (.int i.toInt) = some i := by
  have fits : -0x8000000000000000 ≤ i.toInt ∧ i.toInt < 0x8000000000000000 :=
    ⟨i.le_toInt, i.toInt_lt⟩
  rw [int64?, if_pos fits, Int64.ofInt_toInt]

end Json

/-! ### Type references -/

namespace TypeRef

mutual
/-- All names in a type: those of source types, of definitions and of types that synthesis made. -/
def names : TypeRef → List TypeName
  | .named name | .synthesized name => [name]
  | .array element => element.names
  | .generic definition args => definition :: namesOfAll args
  | _ => []

def namesOfAll : List TypeRef → List TypeName
  | [] => []
  | t :: rest => t.names ++ namesOfAll rest
end

mutual
theorem ofJson?_toJson : (t : TypeRef) → (∀ n ∈ t.names, n.Dotless) → ofJson? t.toJson = some t
  | .primitive p, _ => by
    rw [toJson, ofJson?, Primitive.ofJson?_toJson]
    rfl
  | .string, _ => rfl
  | .object, _ => rfl
  | .named name, dotless => by
    rw [toJson, ofJson?, TypeName.ofJson?_toJson (dotless name List.mem_cons_self)]
    rfl
  | .synthesized name, dotless => by
    rw [toJson, ofJson?, TypeName.ofJson?_toJson (dotless name List.mem_cons_self)]
    rfl
  | .array element, dotless => by
    rw [toJson, ofJson?, ofJson?_toJson element dotless]
    rfl
  | .generic definition args, dotless => by
    have definitionRead := TypeName.ofJson?_toJson (dotless definition List.mem_cons_self)
    have argsRead := ofAll?_toJsonAll args fun n isIn =>
      dotless n (List.mem_cons_of_mem definition isIn)
    have distinct : ["definition", "args"].Nodup := by decide
    have once : Json.repeatsKnown ["definition", "args"]
        [("definition", definition.toJson), ("args", .array (toJsonAll args))] = false :=
      Json.repeatsKnown_eq_false distinct
    have shown : argsOfFields? [("definition", definition.toJson), ("args", .array (toJsonAll args))] =
        some args := by
      rw [argsOfFields?, argsOfFields?, argsOf?, argsRead]
      rfl
    rw [toJson, ofJson?, ofGeneric?, once, shown, List.lookup_cons_self, Option.bind_some,
      definitionRead]
    rfl

theorem ofAll?_toJsonAll :
    (ts : List TypeRef) → (∀ n ∈ namesOfAll ts, n.Dotless) → ofAll? (toJsonAll ts) = some ts
  | [], _ => rfl
  | t :: rest, dotless => by
    have first := ofJson?_toJson t fun n isIn => dotless n (List.mem_append_left _ isIn)
    have others := ofAll?_toJsonAll rest fun n isIn => dotless n (List.mem_append_right _ isIn)
    rw [toJsonAll, ofAll?, first, others]
    rfl
end

theorem names_of_ofBareName? {name : String} {t : TypeRef} (read : ofBareName? name = some t) :
    t.names = [] := by
  unfold ofBareName? at read
  split at read
  · cases read; rfl
  · cases read; rfl
  · cases read

theorem dotless_of_generic {definition : TypeName} {args : List TypeRef} (own : definition.Dotless)
    (inArgs : ∀ n ∈ namesOfAll args, n.Dotless) :
    ∀ n ∈ (TypeRef.generic definition args).names, n.Dotless := by
  intro n isIn
  obtain rfl | isIn := List.mem_cons.1 isIn
  · exact own
  · exact inArgs n isIn

mutual
/-- What a reader returns holds only names that were split at their last dot. -/
theorem dotless_of_ofJson? :
    (j : Json) → (t : TypeRef) → ofJson? j = some t → ∀ n ∈ t.names, n.Dotless
  | .object [(name, content)], t, read => by
    unfold ofJson? at read
    split at read
    case h_1 =>
      obtain ⟨p, -, rfl⟩ := Option.map_eq_some_iff.1 read
      simp [names]
    case h_2 | h_3 =>
      obtain ⟨name, nameRead, rfl⟩ := Option.map_eq_some_iff.1 read
      intro n isIn
      obtain rfl := List.mem_singleton.1 isIn
      exact TypeName.dotless_of_ofJson? nameRead
    case h_4 =>
      obtain ⟨element, elementRead, rfl⟩ := Option.map_eq_some_iff.1 read
      exact dotless_of_ofJson? content element elementRead
    case h_5 => exact dotless_of_ofGeneric? content t read
    case h_6 =>
      split at read
      · simp [names_of_ofBareName? read]
      · cases read
  | .text name, t, read => by
    rw [ofJson?] at read
    simp [names_of_ofBareName? read]

theorem dotless_of_ofGeneric? :
    (j : Json) → (t : TypeRef) → ofGeneric? j = some t → ∀ n ∈ t.names, n.Dotless
  | .object fields, t, read => by
    rw [ofGeneric?] at read
    split at read
    · cases read
    · obtain ⟨definition, definitionRead, read⟩ := Option.bind_eq_some_iff.1 read
      obtain ⟨args, argsRead, read⟩ := Option.bind_eq_some_iff.1 read
      obtain ⟨content, -, definitionRead⟩ := Option.bind_eq_some_iff.1 definitionRead
      cases read
      exact dotless_of_generic (TypeName.dotless_of_ofJson? definitionRead)
        (dotless_of_argsOfFields? fields args argsRead)
  | .array [definitionJson, argsJson], t, read => by
    rw [ofGeneric?] at read
    obtain ⟨definition, definitionRead, read⟩ := Option.bind_eq_some_iff.1 read
    obtain ⟨args, argsRead, read⟩ := Option.bind_eq_some_iff.1 read
    cases read
    exact dotless_of_generic (TypeName.dotless_of_ofJson? definitionRead)
      (dotless_of_argsOf? argsJson args argsRead)

theorem dotless_of_argsOfFields? : (fields : List (String × Json)) → (ts : List TypeRef) →
    argsOfFields? fields = some ts → ∀ n ∈ namesOfAll ts, n.Dotless
  | (name, content) :: rest, ts, read => by
    rw [argsOfFields?] at read
    split at read
    · exact dotless_of_argsOf? content ts read
    · exact dotless_of_argsOfFields? rest ts read

theorem dotless_of_argsOf? :
    (j : Json) → (ts : List TypeRef) → argsOf? j = some ts → ∀ n ∈ namesOfAll ts, n.Dotless
  | .array items, ts, read => by
    rw [argsOf?] at read
    exact dotless_of_ofAll? items ts read

theorem dotless_of_ofAll? : (items : List Json) → (ts : List TypeRef) →
    ofAll? items = some ts → ∀ n ∈ namesOfAll ts, n.Dotless
  | [], ts, read => by
    cases read
    simp [namesOfAll]
  | j :: rest, ts, read => by
    rw [ofAll?] at read
    obtain ⟨first, firstRead, read⟩ := Option.bind_eq_some_iff.1 read
    obtain ⟨others, othersRead, read⟩ := Option.bind_eq_some_iff.1 read
    cases read
    intro n isIn
    obtain isIn | isIn := List.mem_append.1 isIn
    · exact dotless_of_ofJson? j first firstRead n isIn
    · exact dotless_of_ofAll? rest others othersRead n isIn
end

end TypeRef

/-! ### Literals, kinds and origins -/

theorem Literal.ofJson?_toJson (l : Literal) : ofJson? l.toJson = some l := by
  have distinct : ["name", "value"].Nodup := by decide
  have once : l.toJson.record? ["name", "value"] =
      some ⟨[("name", .text l.name), ("value", .int l.value.toInt)]⟩ :=
    Json.record?_object distinct
  have value := Json.int64?_toInt l.value
  rw [ofJson?, once]
  change (Json.int64? (.int l.value.toInt)).bind (fun value => some (⟨l.name, value⟩ : Literal)) = _
  rw [value]
  rfl

theorem Origin.ofJson?_toJson (origin : Origin) : ofJson? origin.toJson = some origin := by
  cases origin with
  | runtime => rfl
  | artifact name => rfl

namespace SourceKind

theorem enumerationOfJson?_record (underlying : Primitive) (literals : List Literal) :
    enumerationOfJson? (.object [("underlying", underlying.toJson),
      ("literals", .array (literals.map Literal.toJson))]) =
        some (.enumeration underlying literals) := by
  have distinct : ["underlying", "literals"].Nodup := by decide
  have once : (Json.object [("underlying", underlying.toJson),
      ("literals", .array (literals.map Literal.toJson))]).record? ["underlying", "literals"] =
        some ⟨[("underlying", underlying.toJson),
          ("literals", .array (literals.map Literal.toJson))]⟩ :=
    Json.record?_object distinct
  have readBack := Json.list?_array_map fun l (_ : l ∈ literals) => Literal.ofJson?_toJson l
  rw [enumerationOfJson?, once]
  change (Primitive.ofJson? underlying.toJson).bind (fun underlying =>
    (Json.list? Literal.ofJson? (.array (literals.map Literal.toJson))).bind fun literals =>
      some (SourceKind.enumeration underlying literals)) = _
  rw [Primitive.ofJson?_toJson, Option.bind_some, readBack, Option.bind_some]

theorem ofJson?_toJson (kind : SourceKind) : ofJson? kind.toJson = some kind := by
  cases kind with
  | classType => rfl
  | interface => rfl
  | struct => rfl
  | enumeration underlying literals => exact enumerationOfJson?_record underlying literals

end SourceKind

/-! ### Members -/

namespace Member

theorem fields_sublist (m : Member) : (m.toJson.fields.map Prod.fst).Sublist fieldNames := by
  rw [toJson, Json.fields, List.map_append, List.map_append, List.map_append]
  exact (((List.Sublist.refl _).append (Json.present_sublist m.getterName)).append
    (Json.present_sublist m.setterName)).append (Json.present_sublist m.suppressGetter)

theorem record?_toJson (m : Member) : m.toJson.record? fieldNames = some ⟨m.toJson.fields⟩ := by
  have distinct : fieldNames.Nodup := by decide
  exact Json.record?_object (m.fields_sublist.nodup distinct)

theorem ofJson?_toJson {m : Member} (typeRead : TypeRef.ofJson? m.type.toJson = some m.type) :
    ofJson? m.toJson = some m := by
  let r : Json.Record := ⟨m.toJson.fields⟩
  have name : r.required? "name" Json.text? = some m.name :=
    Json.Record.required?_of_lookup (j := .text m.name) (by simp [r, toJson, Json.fields])
  have type : r.required? "type" TypeRef.ofJson? = some m.type :=
    (Json.Record.required?_of_lookup (by simp [r, toJson, Json.fields, List.lookup_cons])).trans
      typeRead
  have visibility : r.withDefault? "visibility" .publicAccess Visibility.ofJson? =
      some m.visibility :=
    (Json.Record.withDefault?_of_lookup
      (by simp [r, toJson, Json.fields, List.lookup_cons])).trans m.visibility.ofJson?_toJson
  have readable : r.withDefault? "readable" true Json.bool? = some m.readable :=
    Json.Record.withDefault?_of_lookup (j := .bool m.readable)
      (by simp [r, toJson, Json.fields, List.lookup_cons])
  have writable : r.withDefault? "writable" true Json.bool? = some m.writable :=
    Json.Record.withDefault?_of_lookup (j := .bool m.writable)
      (by simp [r, toJson, Json.fields, List.lookup_cons])
  have ignored : r.withDefault? "ignore" false Json.bool? = some m.ignored :=
    Json.Record.withDefault?_of_lookup (j := .bool m.ignored)
      (by simp [r, toJson, Json.fields, List.lookup_cons])
  have getterName : r.optional? "getter_name" Json.text? = some m.getterName := by
    refine Json.Record.optional?_of_lookup_map ?_ fun s _ => Json.optional?_text s
    simp [r, toJson, Json.fields, List.lookup_cons, List.lookup_append, Json.lookup_present_self,
      Json.lookup_present_of_ne]
  have setterName : r.optional? "setter_name" Json.text? = some m.setterName := by
    refine Json.Record.optional?_of_lookup_map ?_ fun s _ => Json.optional?_text s
    simp [r, toJson, Json.fields, List.lookup_cons, List.lookup_append, Json.lookup_present_self,
      Json.lookup_present_of_ne]
  have suppressGetter : r.optional? "suppress_getter" Json.bool? = some m.suppressGetter := by
    refine Json.Record.optional?_of_lookup_map ?_ fun b _ => Json.optional?_bool b
    simp [r, toJson, Json.fields, List.lookup_cons, List.lookup_append, Json.lookup_present_self,
      Json.lookup_present_of_ne]
  rw [ofJson?, m.record?_toJson]
  simp only [Option.bind_eq_bind, Option.bind_some]
  rw [name, Option.bind_some, type, Option.bind_some, visibility, Option.bind_some, readable,
    Option.bind_some, writable, Option.bind_some, ignored, Option.bind_some, getterName,
    Option.bind_some, setterName, Option.bind_some, suppressGetter, Option.bind_some]
  rfl

theorem dotless_of_ofJson? {j : Json} {m : Member} (read : ofJson? j = some m) :
    ∀ n ∈ m.type.names, n.Dotless := by
  obtain ⟨r, -, read⟩ := Option.bind_eq_some_iff.1 read
  obtain ⟨name, -, read⟩ := Option.bind_eq_some_iff.1 read
  obtain ⟨type, typeRead, read⟩ := Option.bind_eq_some_iff.1 read
  obtain ⟨visibility, -, read⟩ := Option.bind_eq_some_iff.1 read
  obtain ⟨readable, -, read⟩ := Option.bind_eq_some_iff.1 read
  obtain ⟨writable, -, read⟩ := Option.bind_eq_some_iff.1 read
  obtain ⟨ignored, -, read⟩ := Option.bind_eq_some_iff.1 read
  obtain ⟨getterName, -, read⟩ := Option.bind_eq_some_iff.1 read
  obtain ⟨setterName, -, read⟩ := Option.bind_eq_some_iff.1 read
  obtain ⟨suppressGetter, -, read⟩ := Option.bind_eq_some_iff.1 read
  cases read
  obtain ⟨j, typeRead⟩ := Json.Record.exists_of_required? typeRead
  exact TypeRef.dotless_of_ofJson? j type typeRead

end Member

/-! ### Source types -/

theorem TypeOptions.ofJson?_toJson (o : TypeOptions) : ofJson? o.toJson = some o := by
  have distinct : ["setters_only", "static_factory"].Nodup := by decide
  have once : o.toJson.record? ["setters_only", "static_factory"] = some ⟨o.toJson.fields⟩ :=
    Json.record?_object distinct
  have settersOnly : Json.Record.withDefault? ⟨o.toJson.fields⟩ "setters_only" false Json.bool? =
      some o.settersOnly :=
    Json.Record.withDefault?_of_lookup (j := .bool o.settersOnly) (by simp [toJson, Json.fields])
  have staticFactory : Json.Record.optional? ⟨o.toJson.fields⟩ "static_factory" Json.text? =
      some o.staticFactory :=
    Json.Record.optional?_of_lookup_ofOption (by simp [toJson, Json.fields, List.lookup_cons])
      fun s _ => Json.optional?_text s
  rw [ofJson?, once]
  simp only [Option.bind_eq_bind, Option.bind_some]
  rw [settersOnly, Option.bind_some, staticFactory]
  rfl

namespace SourceType

/-- All names in a source type: its own, that of its base and those in the types of its members. -/
def names (t : SourceType) : List TypeName :=
  t.name :: (t.base.toList ++ t.members.flatMap (·.type.names))

theorem mem_names_of_base {t : SourceType} {n : TypeName} (isBase : n ∈ t.base) : n ∈ t.names :=
  List.mem_cons_of_mem _ (List.mem_append_left _ (Option.mem_toList.2 isBase))

theorem mem_names_of_member {t : SourceType} {m : Member} {n : TypeName} (isIn : m ∈ t.members)
    (inType : n ∈ m.type.names) : n ∈ t.names :=
  List.mem_cons_of_mem _ (List.mem_append_right _ (List.mem_flatMap.2 ⟨m, isIn, inType⟩))

theorem fields_sublist (t : SourceType) : (t.toJson.fields.map Prod.fst).Sublist fieldNames := by
  rw [toJson, Json.fields, List.map_append, List.map_append]
  exact ((List.Sublist.refl ["name", "kind", "visibility"]).append
    (Json.present_sublist t.base)).append (List.Sublist.refl ["origin", "members", "options"])

theorem record?_toJson (t : SourceType) : t.toJson.record? fieldNames = some ⟨t.toJson.fields⟩ := by
  have distinct : fieldNames.Nodup := by decide
  exact Json.record?_object (t.fields_sublist.nodup distinct)

theorem ofJson?_toJson {t : SourceType} (dotless : ∀ n ∈ t.names, n.Dotless) :
    ofJson? t.toJson = some t := by
  let r : Json.Record := ⟨t.toJson.fields⟩
  have name : r.required? "name" TypeName.ofJson? = some t.name :=
    (Json.Record.required?_of_lookup (by simp [r, toJson, Json.fields])).trans
      (TypeName.ofJson?_toJson (dotless t.name List.mem_cons_self))
  have kind : r.withDefault? "kind" .classType SourceKind.ofJson? = some t.kind :=
    (Json.Record.withDefault?_of_lookup
      (by simp [r, toJson, Json.fields, List.lookup_cons])).trans t.kind.ofJson?_toJson
  have visibility : r.withDefault? "visibility" .publicAccess Visibility.ofJson? =
      some t.visibility :=
    (Json.Record.withDefault?_of_lookup
      (by simp [r, toJson, Json.fields, List.lookup_cons])).trans t.visibility.ofJson?_toJson
  have base : r.optional? "base" TypeName.ofJson? = some t.base := by
    refine Json.Record.optional?_of_lookup_map (f := TypeName.toJson) ?_ fun n isBase => ?_
    · simp [r, toJson, Json.fields, List.lookup_cons, List.lookup_append, Json.lookup_present_self]
    · exact TypeName.optional?_toJson (dotless n (mem_names_of_base isBase))
  have origin : r.withDefault? "origin" (.artifact "") Origin.ofJson? = some t.origin :=
    (Json.Record.withDefault?_of_lookup
      (by simp [r, toJson, Json.fields, List.lookup_cons, List.lookup_append,
        Json.lookup_present_of_ne])).trans t.origin.ofJson?_toJson
  have members : r.withDefault? "members" [] (Json.list? Member.ofJson?) = some t.members :=
    (Json.Record.withDefault?_of_lookup
      (by simp [r, toJson, Json.fields, List.lookup_cons, List.lookup_append,
        Json.lookup_present_of_ne])).trans
      (Json.list?_array_map fun m isIn => Member.ofJson?_toJson <|
        TypeRef.ofJson?_toJson m.type fun n inType => dotless n (mem_names_of_member isIn inType))
  have options : r.withDefault? "options" {} TypeOptions.ofJson? = some t.options :=
    (Json.Record.withDefault?_of_lookup
      (by simp [r, toJson, Json.fields, List.lookup_cons, List.lookup_append,
        Json.lookup_present_of_ne])).trans t.options.ofJson?_toJson
  rw [ofJson?, t.record?_toJson]
  simp only [Option.bind_eq_bind, Option.bind_some]
  rw [name, Option.bind_some, kind, Option.bind_some, visibility, Option.bind_some, base,
    Option.bind_some, origin, Option.bind_some, members, Option.bind_some, options, Option.bind_some]
  rfl

theorem dotless_of_ofJson? {j : Json} {t : SourceType} (read : ofJson? j = some t) :
    ∀ n ∈ t.names, n.Dotless := by
  obtain ⟨r, -, read⟩ := Option.bind_eq_some_iff.1 read
  obtain ⟨name, nameRead, read⟩ := Option.bind_eq_some_iff.1 read
  obtain ⟨kind, -, read⟩ := Option.bind_eq_some_iff.1 read
  obtain ⟨visibility, -, read⟩ := Option.bind_eq_some_iff.1 read
  obtain ⟨base, baseRead, read⟩ := Option.bind_eq_some_iff.1 read
  obtain ⟨origin, -, read⟩ := Option.bind_eq_some_iff.1 read
  obtain ⟨members, membersRead, read⟩ := Option.bind_eq_some_iff.1 read
  obtain ⟨options, -, read⟩ := Option.bind_eq_some_iff.1 read
  cases read
  intro n isIn
  obtain rfl | isIn := List.mem_cons.1 isIn
  · obtain ⟨j, nameRead⟩ := Json.Record.exists_of_required? nameRead
    exact TypeName.dotless_of_ofJson? nameRead
  obtain isBase | isIn := List.mem_append.1 isIn
  · obtain rfl := Option.mem_toList.1 isBase
    obtain ⟨j, baseRead⟩ := Json.Record.exists_of_optional? baseRead
    exact TypeName.dotless_of_ofJson? baseRead
  · obtain ⟨m, isMember, inType⟩ := List.mem_flatMap.1 isIn
    obtain rfl | ⟨j, membersRead⟩ := Json.Record.exists_of_withDefault? membersRead
    · cases isMember
    · obtain ⟨j, memberRead⟩ := Json.exists_of_list? membersRead isMember
      exact Member.dotless_of_ofJson? memberRead n inType

/-- A source type is read back from its record if and only if its names are in their documented form;
and what was read from any value at all is read back from the record of it. -/
theorem reads_back :
    (∀ t : SourceType, ofJson? t.toJson = some t ↔ ∀ n ∈ t.names, n.Dotless) ∧
      ∀ (j : Json) (t : SourceType), ofJson? j = some t → ofJson? t.toJson = some t :=
  ⟨fun _ => ⟨dotless_of_ofJson?, ofJson?_toJson⟩,
    fun _ _ read => ofJson?_toJson (dotless_of_ofJson? read)⟩

/-- An enumeration is read back as it was, and a class from a record that leaves out what has a
default. -/
theorem reads_back_shop :
    let status : SourceType :=
      { name := ⟨"shop.model", "Status"⟩, kind := .enumeration .u8 [⟨"Open", 0⟩, ⟨"Closed", -1⟩],
        origin := .runtime, visibility := .internalAccess }
    let order : SourceType :=
      { name := ⟨"shop", "Order"⟩, base := some ⟨"", "Record"⟩,
        members := [{ name := "lines", getterName := some "all",
                      type := .generic ⟨"std", "List"⟩ [.array (.named ⟨"shop", "Line"⟩)] }] }
    let written : Json := .object [("base", .text "Record"), ("name", .text "shop.Order"),
      ("members", .array [.object [("getter_name", .text "all"), ("name", .text "lines"),
        ("type", .object [("generic", .array [.text "std.List",
          .array [.object [("array", .object [("named", .text "shop.Line")])]]])])]])]
    ofJson? status.toJson = some status ∧ ofJson? written = some order ∧
      ofJson? order.toJson = some order := by
  intro status order written
  have dotless : ∀ n ∈ status.names, n.Dotless := by decide +kernel
  have read : ofJson? written = some order := by decide +kernel
  exact ⟨(reads_back.1 status).2 dotless, read, reads_back.2 written order read⟩

end SourceType

end FluentWrappers
