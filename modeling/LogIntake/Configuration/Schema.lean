import LogIntake.Configuration.Basic

/-!
# Schemas

A schema lists the options that a codec knows. An option that is declared again
replaces the earlier one and goes to the end of the list. A configuration fits
a schema when every mandatory option is set.
-/

namespace LogIntake

/-- What an option holds. -/
inductive OptionKind
  | text
  | number
deriving DecidableEq, Repr

/-- The name of a kind. -/
def OptionKind.name : OptionKind → Text
  | text => "text".toList
  | number => "number".toList

/-- An option that a codec knows. -/
structure OptionField where
  key : Text
  label : Text
  default? : Option Json
  description : Text
  isOptional : Bool
  kind : OptionKind
deriving DecidableEq, Repr

namespace OptionField

/-- An option that holds a text. -/
def ofText (key label : Text) (default? : Option Text) (description : Text)
    (isOptional : Bool) : OptionField :=
  ⟨key, label, default?.map .string, description, isOptional, .text⟩

/-- An option that holds an unsigned integer. -/
def ofNumber (key label : Text) (default : Nat) (description : Text)
    (isOptional : Bool) : OptionField :=
  ⟨key, label, some (.number (.integer default)), description, isOptional, .number⟩

/-- The option as an object. -/
def toJson (field : OptionField) : Json :=
  .object
    [("key".toList, .string field.key),
      ("label".toList, .string field.label),
      ("default".toList, field.default?.getD .null),
      ("description".toList, .string field.description),
      ("optional".toList, .bool field.isOptional),
      ("kind".toList, .string field.kind.name)]

/-- Whether a configuration sets the option. -/
def isSetIn (field : OptionField) (configuration : Configuration) :
    Except Configuration.Error Bool :=
  match field.kind with
  | .text => .ok (configuration.isSet field.key)
  | .number => (configuration.natural? field.key).map (·.isSome)

/-- Checks that a configuration sets the option if it is mandatory. -/
def check (field : OptionField) (configuration : Configuration) :
    Except Configuration.Error Unit :=
  if field.isOptional then .ok ()
  else
    match field.isSetIn configuration with
    | .error e => .error e
    | .ok true => .ok ()
    | .ok false => .error (.invalidValue field.key .missing)

end OptionField

/-- The options that a codec knows, in order. -/
structure Schema where
  fields : List OptionField
deriving DecidableEq, Repr

namespace Schema

/-- The schema without options. -/
def empty : Schema :=
  ⟨[]⟩

/-- Declares an option. -/
def declare (schema : Schema) (field : OptionField) : Schema :=
  ⟨schema.fields.filter (·.key != field.key) ++ [field]⟩

/-- The schema with the given options, declared in order. -/
def ofList (fields : List OptionField) : Schema :=
  fields.foldl declare empty

/-- The option with the given key. -/
def get? (schema : Schema) (key : Text) : Option OptionField :=
  schema.fields.find? (·.key == key)

/-- The schema as an object. -/
def toJson (schema : Schema) : Json :=
  .object [("fields".toList, .array (schema.fields.map OptionField.toJson))]

/-- Checks that a configuration sets every mandatory option. The first one that
is not set is reported. -/
def check (schema : Schema) (configuration : Configuration) : Except Configuration.Error Unit :=
  schema.fields.forM (·.check configuration)

end Schema

end LogIntake
