import Mathlib.Data.List.Perm.Subperm
import CompositeIndex.Index.Config
import CompositeIndex.Proofs.Index.EffectiveDivisor
import CompositeIndex.Proofs.Json.Measure

/-!
# Configurations in JSON

Every field that is read adds its name to those of the fields that have been given, and there are
three fields, none of which is read twice. So an object with another field, or with one of the
three repeated, is never read to its end, wherever the field stands and whatever its value is. A
configuration with valid divisors is read back from its own text.
-/

namespace CompositeIndex
namespace IndexConfig

open Json (IsText Readable Stops)
open Json.Decoder

/-! ## Fields -/

/-- The names of the fields. -/
def fieldNames : List String := ["default_divisor", "divisors", "constituents"]

/-- The names of the fields that have been read. -/
def Fields.given (fields : Fields) : List String :=
  (fields.defaultDivisor.map fun _ => "default_divisor").toList ++
    ((fields.divisors.map fun _ => "divisors").toList ++
      (fields.constituents.map fun _ => "constituents").toList)

theorem Fields.given_sublist (fields : Fields) : fields.given.Sublist fieldNames := by
  have atMostOne : ∀ {α : Type} (field : Option α) (name : String),
      ((field.map fun _ => name).toList).Sublist [name] := by
    intro α field name
    cases field with
    | none => exact List.nil_sublist _
    | some value => exact List.Sublist.refl _
  exact (atMostOne _ _).append ((atMostOne _ _).append (atMostOne _ _))

/-- The value of a named field that was open is read behind the colon, and nothing else
changes. -/
inductive FieldRead (fields : Fields) :
    (name : String) → (next : Fields) → (chars behind : List Char) → Prop
  | defaultDivisor
      {value : Option Float} {chars behind : List Char}
      (isOpen : fields.defaultDivisor = none)
      (isRead : optional float chars = .ok (value, behind)) :
      FieldRead fields "default_divisor" { fields with defaultDivisor := some value } chars behind
  | divisors
      {value : List (String × Float)} {chars behind : List Char}
      (isOpen : fields.divisors = none)
      (isRead : divisorsDecoder chars = .ok (value, behind)) :
      FieldRead fields "divisors" { fields with divisors := some value } chars behind
  | constituents
      {value : List (String × List String)} {chars behind : List Char}
      (isOpen : fields.constituents = none)
      (isRead : constituentsDecoder chars = .ok (value, behind)) :
      FieldRead fields "constituents" { fields with constituents := some value } chars behind

section

variable {fields next : Fields} {name : String} {rest behind : List Char}

/-- A field is read behind the colon unless it has been given. -/
theorem openField_eq_ok_iff
    (decoder : Json.Decoder α)
    (set : α → Fields)
    (isGiven : Bool)
    (fault : Json.Fault) :
    (do
      if isGiven then throw fault
      let (value, rest) ← decoder (← colon rest)
      pure (set value, rest)) = Except.ok (next, behind) ↔
    isGiven = false ∧ ∃ chars value, colon rest = .ok chars ∧
      decoder chars = .ok (value, behind) ∧ set value = next := by
  cases isGiven with
  | true => exact ⟨nofun, nofun⟩
  | false =>
      cases punctuated : colon rest with
      | error fault => exact ⟨nofun, nofun⟩
      | ok chars =>
          cases isRead : decoder chars with
          | error fault => simp [bind, Except.bind, isRead]
          | ok found => 
              simp [bind, Except.bind, isRead, pure, Except.pure, Prod.ext_iff, and_comm]

theorem field_eq_ok_iff :
    field fields name rest = .ok (next, behind) ↔
      ∃ chars, colon rest = .ok chars ∧ FieldRead fields name next chars behind := by
  constructor
  · intro isField
    unfold field at isField
    split at isField
    next isName =>
      obtain ⟨isOpen, chars, value, punctuated, isRead, rfl⟩ :=
        (openField_eq_ok_iff _ (fun value => { fields with defaultDivisor := some value }) _ _).mp
          isField
      rw [isName]
      exact ⟨chars, punctuated, .defaultDivisor (by simpa using isOpen) isRead⟩
    split at isField
    next isName =>
      obtain ⟨isOpen, chars, value, punctuated, isRead, rfl⟩ :=
        (openField_eq_ok_iff _ (fun value => { fields with divisors := some value }) _ _).mp
          isField
      rw [isName]
      exact ⟨chars, punctuated, .divisors (by simpa using isOpen) isRead⟩
    split at isField
    next isName =>
      obtain ⟨isOpen, chars, value, punctuated, isRead, rfl⟩ :=
        (openField_eq_ok_iff _ (fun value => { fields with constituents := some value }) _ _).mp
          isField
      rw [isName]
      exact ⟨chars, punctuated, .constituents (by simpa using isOpen) isRead⟩
    next => cases isField
  · rintro ⟨chars, punctuated, isRead⟩
    cases isRead with
    | defaultDivisor isOpen isRead =>
        exact (openField_eq_ok_iff _ (fun value => { fields with defaultDivisor := some value }) _
          _).mpr ⟨by simp [isOpen], chars, _, punctuated, isRead, rfl⟩
    | divisors isOpen isRead =>
        exact (openField_eq_ok_iff _ (fun value => { fields with divisors := some value }) _
          _).mpr ⟨by simp [isOpen], chars, _, punctuated, isRead, rfl⟩
    | constituents isOpen isRead =>
        exact (openField_eq_ok_iff _ (fun value => { fields with constituents := some value }) _
          _).mpr ⟨by simp [isOpen], chars, _, punctuated, isRead, rfl⟩

theorem FieldRead.given_perm
    {chars : List Char}
    (isRead : FieldRead fields name next chars behind) :
    next.given.Perm (name :: fields.given) := by
  cases isRead with
  | defaultDivisor isOpen => simp [Fields.given, isOpen]
  | divisors isOpen =>
      simp only [Fields.given, isOpen]
      exact List.perm_middle
  | constituents isOpen =>
      simp only [Fields.given, isOpen, Option.map_none, Option.toList_none, List.append_nil,
        ← List.append_assoc]
      exact List.perm_append_singleton _ _

theorem FieldRead.behind_eq
    {chars : List Char} {depth : Nat} {json : Json}
    (isTyped : FieldRead fields name next chars behind)
    (isRead : value depth chars = .ok (json, rest)) :
    behind = rest := by
  cases isTyped with
  | defaultDivisor _ isTyped =>
      exact endsAlike_optional float_skipGap endsAlike_float _ _ _ _ _ _ isRead isTyped
  | divisors _ isTyped => exact endsAlike_dictionary endsAlike_float _ _ _ _ _ _ isRead isTyped
  | constituents _ isTyped =>
      exact endsAlike_dictionary (endsAlike_array endsAlike_text) _ _ _ _ _ _ isRead isTyped

end

/-! ## Objects -/

section

variable {fields next final : Fields} {bound chars rest : List Char} {isFirst : Bool}

/-- Fields are read up to the end of their object, or one is read before the others. -/
theorem objectFields_cons_cases
    {skipped : Char}
    (areFields : objectFields (skipped :: bound) isFirst fields chars = .ok (final, rest)) :
    (nextMember isFirst chars = .ok none ∧ final = fields) ∨
    ∃ start name behindName behindColon next between,
      nextMember isFirst chars = .ok (some start) ∧ quoted start = .ok (name, behindName) ∧
        colon behindName = .ok behindColon ∧
          FieldRead fields (String.ofList name) next behindColon between ∧
            objectFields bound false next between = .ok (final, rest) := by
  rw [objectFields] at areFields
  obtain ⟨start?, isStart, areFields⟩ := exists_of_bind_eq_ok areFields
  cases start? with
  | none =>
      obtain ⟨_, _, same⟩ := exists_of_bind_eq_ok areFields
      cases same
      exact .inl ⟨isStart, rfl⟩
  | some start =>
      obtain ⟨⟨name, behindName⟩, isName, areFields⟩ := exists_of_bind_eq_ok areFields
      obtain ⟨⟨next, between⟩, isField, areFields⟩ := exists_of_bind_eq_ok areFields
      obtain ⟨behindColon, isColon, isRead⟩ := field_eq_ok_iff.mp isField
      exact .inr
        ⟨start, name, behindName, behindColon, next, between, isStart, isName, isColon, isRead,
          areFields⟩

/-- What is read as an object and as a configuration gives the fields with the names of its
members. -/
theorem objectFields_given
    {depth : Nat} {found : List (String × Json)} {behind : List Char}
    (areMembers : members (value depth) bound isFirst chars = .ok (found, rest))
    (areFields : objectFields bound isFirst fields chars = .ok (final, behind)) :
    final.given.Perm (found.map Prod.fst ++ fields.given) := by
  induction bound generalizing chars isFirst found fields with
  | nil => cases areFields
  | cons skipped bound inductionHypothesis =>
      rcases members_cons_cases areMembers with
        ⟨isEnd, _, rfl⟩ |
          ⟨_, name, _, _, _, _, others, isStart, isName, isColon, isItem, areOthers, rfl⟩
      all_goals
        rcases objectFields_cons_cases areFields with
          ⟨isEnd', rfl⟩ | ⟨_, _, _, _, next, _, isStart', isName', isColon', isRead, areRest⟩
      · exact List.Perm.refl _
      · cases isEnd.symm.trans isStart'
      · cases isStart.symm.trans isEnd'
      · cases isStart.symm.trans isStart'
        cases isName.symm.trans isName'
        cases isColon.symm.trans isColon'
        cases isRead.behind_eq isItem
        have ofOthers := inductionHypothesis areOthers areRest
        have ofFirst := isRead.given_perm.append_left (others.map Prod.fst)
        exact ofOthers.trans (ofFirst.trans List.perm_middle)

end

/-- Nothing but a part of the three fields, in any order, is in an object that is read. -/
theorem names_subperm
    {raw : String} {config : IndexConfig} {members : List (String × Json)}
    (isText : IsText raw (.object members))
    (isRead : ofJson raw = .ok config) :
    (members.map Prod.fst).Subperm fieldNames := by
  obtain ⟨depth, isWhole⟩ := isText
  obtain ⟨rest, isObject, _⟩ := whole_eq_ok_iff.mp isWhole
  obtain ⟨behind, isConfig, _⟩ := whole_eq_ok_iff.mp isRead
  have here := readsHere_of_value isObject
  generalize start : skipGap raw.toList = chars at here
  cases here with
  | object areMembers =>
      simp only [decoder, start] at isConfig
      obtain ⟨⟨final, _⟩, areFields, _⟩ := exists_of_map_eq_ok isConfig
      have given := objectFields_given areMembers areFields
      exact ⟨final.given, by simpa [Fields.given] using given, final.given_sublist⟩

/-! ## Reading back -/

/-- The fields are read one after the other, each from its value as it is written. -/
inductive FieldsRead :
    (fields : Fields) → (written : List (String × Json)) → (final : Fields) → Prop
  | nil {fields : Fields} : FieldsRead fields [] fields
  | cons
      {fields next final : Fields} {field : String × Json} {written : List (String × Json)}
      (isRead : ∀ rest, Stops Json.isNumeralChar rest →
        FieldRead fields field.1 next (field.2.renderChars ++ rest) rest)
      (others : FieldsRead next written final) :
      FieldsRead fields (field :: written) final

section

variable {fields next final : Fields} {bound chars rest : List Char} {isFirst : Bool}

theorem objectFields_cons
    {skipped : Char} {written : String × Json} {behind : List Char}
    (isNext : nextMember isFirst chars = .ok (some (behindQuote written ++ behind)))
    (isRead : FieldRead fields written.1 next (written.2.renderChars ++ behind) behind) :
    objectFields (skipped :: bound) isFirst fields chars =
      objectFields bound false next behind := by
  have named : quoted (behindQuote written ++ behind) =
      .ok (written.1.toList, ':' :: (written.2.renderChars ++ behind)) := by
    simp [behindQuote, quoted_append]
  have isField : field fields written.1 (':' :: (written.2.renderChars ++ behind)) =
      .ok (next, behind) :=
    field_eq_ok_iff.mpr ⟨_, rfl, isRead⟩
  simp [objectFields, isNext, named, isField, bind, Except.bind]

theorem objectFields_behindFirst
    {written : List (String × Json)}
    (areRead : FieldsRead fields written final)
    (enough : written.length < bound.length)
    (rest : List Char) :
    objectFields bound false fields
        ((written.flatMap fun field => ',' :: renderMember field) ++ '}' :: rest) =
      .ok (final, rest) := by
  induction areRead generalizing bound with
  | nil =>
      cases bound with
      | nil => cases enough
      | cons skipped bound => rfl
  | @cons _ _ _ field others isRead _ inductionHypothesis =>
      cases bound with
      | nil => cases enough
      | cons skipped bound =>
          simp only [List.flatMap_cons, List.cons_append, List.append_assoc, renderMember_eq field]
          rw [objectFields_cons (nextMember_comma _)
            (isRead _ (stops_behindPart others _ rfl rest))]
          exact inductionHypothesis (Nat.lt_of_succ_lt_succ enough)

theorem objectFields_renderMembers
    {written : List (String × Json)}
    (areRead : FieldsRead fields written final)
    (enough : written.length < bound.length)
    (rest : List Char) :
    objectFields bound true fields (Json.renderMembers written ++ '}' :: rest) =
      .ok (final, rest) := by
  cases bound with
  | nil => cases enough
  | cons skipped bound =>
      cases areRead with
      | nil => rfl
      | @cons _ _ _ field others isRead othersRead =>
          rw [renderMembers_cons, List.append_assoc, renderMember_eq field, List.cons_append,
            objectFields_cons (nextMember_first _)
              (isRead _ (stops_behindPart others _ rfl rest))]
          exact objectFields_behindFirst othersRead (Nat.lt_of_succ_lt_succ enough) rest

end

/-- An object is read as the configuration that its fields make up. -/
theorem ofJson_render_object
    {written : List (String × Json)} {final : Fields}
    (areRead : FieldsRead {} written final) :
    ofJson (Json.render (.object written)) = .ok final.finish := by
  have enough : written.length < (Json.renderMembers written ++ ['}']).length := by
    have longer := length_le_length_renderMembers written
    simp only [List.length_append, List.length_singleton]
    omega
  have areFields := objectFields_renderMembers areRead enough []
  refine whole_eq_ok_iff.mpr ⟨[], ?_, rfl⟩
  simp [Json.render, Json.renderChars, decoder, skipGap_cons (show isGap '{' = false from rfl),
    areFields, Except.map]

/-! ## Configurations -/

theorem ofList_toList {β : Type} (map : Std.ExtTreeMap String β) :
    Std.ExtTreeMap.ofList map.toList = map := by
  refine Std.ExtTreeMap.ext_getElem? fun name => ?_
  cases entry : map[name]? with
  | some value =>
      exact Std.ExtTreeMap.getElem?_ofList_of_mem Std.ReflCmp.compare_self
        Std.ExtTreeMap.distinct_keys_toList
        (Std.ExtTreeMap.mem_toList_iff_getElem?_eq_some.mpr entry)
  | none =>
      refine Std.ExtTreeMap.getElem?_ofList_of_contains_eq_false ?_
      rw [Std.ExtTreeMap.map_fst_toList_eq_keys, Std.ExtTreeMap.contains_keys,
        Std.ExtTreeMap.contains_eq_isSome_getElem?, entry]
      rfl

theorem reads_measure {value : Float} (good : IsPositiveFinite value) :
    Reads float (Json.measure value).renderChars value := by
  rw [Json.measure, if_pos good.1, Json.renderChars]
  exact reads_float (Json.readsBack_of_isFinite good.1)

theorem reads_optional_measure {value : Float} (good : IsPositiveFinite value) :
    Reads (optional float) (Json.measure value).renderChars (some value) := by
  have reads := reads_measure good
  obtain ⟨first, others, spelled, begins⟩ :=
    exists_cons_of_numeral (Json.readsBack_of_isFinite good.1).numeral
  rw [Json.measure, if_pos good.1, Json.renderChars, spelled] at reads ⊢
  exact reads_optional float_skipGap begins.not_isGap (begins.ne (by decide) rfl) reads

theorem reads_texts (values : List String) :
    Reads (array text) (Json.texts values).renderChars values :=
  reads_items .text (fun _ _ => (.text : Readable 0 _)) fun value _ => reads_quote value

/-- The fields of a configuration are read one after the other. -/
theorem fieldsRead_toJson {config : IndexConfig} (valid : config.IsValid) :
    ∃ written, config.toJson = .object written ∧
      FieldsRead {} written
        { defaultDivisor := some config.defaultDivisor
          divisors := some config.divisors.toList
          constituents := some config.constituents.toList } := by
  have readsCommon : Reads (optional float)
      ((config.defaultDivisor.map Json.measure).getD .null).renderChars config.defaultDivisor := by
    cases given : config.defaultDivisor with
    | none => exact reads_optional_null
    | some value => exact reads_optional_measure (valid.common value given)
  have readsOwn : ∀ entry ∈ config.divisors.toList,
      Reads float (Json.measure entry.2).renderChars entry.2 := by
    intro entry member
    have given := Std.ExtTreeMap.mem_toList_iff_getElem?_eq_some.mp member
    exact reads_measure (valid.own _ _ given)
  exact ⟨_, rfl,
    .cons (fun rest stops => .defaultDivisor rfl (readsCommon rest stops)) <|
    .cons (fun rest stops => .divisors rfl (reads_members Json.measure readsOwn rest stops)) <|
    .cons (fun rest stops => .constituents rfl
      (reads_members Json.texts (fun entry _ => reads_texts entry.2) rest stops)) .nil⟩

theorem ofJson_render_toJson {config : IndexConfig} (valid : config.IsValid) :
    ofJson config.toJson.render = .ok config := by
  obtain ⟨written, spelled, areRead⟩ := fieldsRead_toJson valid
  rw [spelled, ofJson_render_object areRead]
  congr
  ext1 <;> simp [Fields.finish, ofList_toList]

theorem readable_measure
    (depth : Nat)
    {value : Float}
    (good : IsPositiveFinite value) :
    Readable depth (Json.measure value) :=
  Json.readable_measure depth good.1 (Json.readsBack_of_isFinite good.1)

theorem readable_toJson {config : IndexConfig} (valid : config.IsValid) :
    Readable 3 config.toJson := by
  have common : Readable 2 ((config.defaultDivisor.map Json.measure).getD .null) := by
    cases given : config.defaultDivisor with
    | none => exact .null
    | some value => exact readable_measure 2 (valid.common value given)
  have own : Readable 2
      (.object (config.divisors.toList.map fun entry => (entry.1, Json.measure entry.2))) := by
    refine .object (List.forall_mem_map.mpr fun entry member => ?_)
    have given := Std.ExtTreeMap.mem_toList_iff_getElem?_eq_some.mp member
    exact readable_measure 1 (valid.own _ _ given)
  have constituents : Readable 2
      (.object (config.constituents.toList.map fun entry => (entry.1, Json.texts entry.2))) :=
    .object (List.forall_mem_map.mpr fun entry _ => Json.readable_texts 0 entry.2)
  refine .object ?_
  simp only [List.forall_mem_cons]
  exact ⟨common, own, constituents, nofun⟩

/-- The text of a configuration with valid divisors is read as an equal configuration. It is the
text of an object with the three fields, and no text of an object that has one more member anywhere
among them, be it named like one of them or not, is read as a configuration. -/
theorem ofJson_toJson
    {config : IndexConfig}
    {divisors : Divisors}
    (checked : config.validDivisors = .ok divisors) :
    ofJson config.toJson.render = .ok config ∧ IsText config.toJson.render config.toJson ∧
    ∃ written, config.toJson = .object written ∧ written.map Prod.fst = fieldNames ∧
      ∀ (front behind : List (String × Json)) (added : String × Json) (raw : String),
        written = front ++ behind → IsText raw (.object (front ++ added :: behind)) →
          ∃ fault, ofJson raw = .error fault := by
  have valid : config.IsValid := by
    rcases validDivisors_cases config with ⟨_, _, valid, _⟩ | ⟨_, refused, _⟩
    · exact valid
    · cases refused.symm.trans checked
  refine ⟨ofJson_render_toJson valid, Json.isText_render (readable_toJson valid), _, rfl, rfl, ?_⟩
  intro front behind added raw split isText
  cases isRead : ofJson raw with
  | error fault => exact ⟨fault, rfl⟩
  | ok other =>
      have few := (names_subperm isText isRead).length_le
      have three := congrArg List.length split
      simp only [List.length_map, List.length_append, List.length_cons, List.length_nil,
        fieldNames] at few three
      omega

/-- A configuration with unusual names and a repeated constituent, and its text with a field
repeated. -/
theorem ofJson_toJson_sample :
    let config : IndexConfig :=
      { divisors := .ofList [("T\"", 0.1)]
        constituents := .ofList [("", ["B", "A", "B"])] }
    let raw :=
      "\x7b\"divisors\":null,\"default_divisor\":null,\"divisors\":\x7b\"T\\\"\":0.1\x7d," ++
        "\"constituents\":\x7b\"\":[\"B\",\"A\",\"B\"]\x7d\x7d"
    ofJson config.toJson.render = .ok config ∧ ∃ fault, ofJson raw = .error fault := by
  intro config raw
  have entries : config.divisors.toList = [("T\"", 0.1)] := by decide +kernel
  have good : IsPositiveFinite 0.1 := ⟨rfl, by decide +kernel⟩
  have valid : config.IsValid := by
    refine ⟨nofun, fun index value given => ?_⟩
    have member := Std.ExtTreeMap.mem_toList_iff_getElem?_eq_some.mpr given
    rw [entries] at member
    cases List.mem_singleton.mp member
    exact good
  rcases validDivisors_cases config with ⟨divisors, checked, _⟩ | ⟨failure, _, blames⟩
  · obtain ⟨same, _, written, isWritten, _, strict⟩ := ofJson_toJson checked
    have spelled : Json.render (.object (("divisors", .null) :: written)) = raw := by
      cases isWritten
      decide +kernel
    have readable : Readable 3 (.object written) := isWritten ▸ readable_toJson valid
    have longer : Readable 3 (.object (("divisors", .null) :: written)) := by
      cases readable with
      | object all => exact .object (List.forall_mem_cons.mpr ⟨.null, all⟩)
    have isText := Json.isText_render longer
    rw [spelled] at isText
    exact ⟨same, strict [] written ("divisors", .null) raw rfl isText⟩
  · exact absurd valid blames.not_isValid

end IndexConfig
end CompositeIndex
