import QueryPath.Definition.Basic
import QueryPath.Document.Form

/-!
# Definitions in documents

The forms of the records of a definition. Their fields stand in the order that counts where a
list gives the values without the names.

| record | required fields |
|---|---|
| definition | `entities` |
| entity, mapped supertype, embeddable, attribute | `name` |
| identifier | all |
| discriminator | `column` |
| collection | `classification`, `key_column`, `element` |
| index | all |
| association to any entity | all but `values` |
-/

namespace QueryPath.Definition

open Document

/-- Fields of a record, of which the first may be missing or nothing. -/
def optionalField {α β : Type} (name : String) (form : Form α) (rest : Fields β) :
    Fields (Option α × β) :=
  .defaulting name none (.optional form) rest

/-- Fields of a record, of which the first is a list that may be missing. -/
def listField {α β : Type} (name : String) (item : Form α) (rest : Fields β) :
    Fields (List α × β) :=
  .defaulting name [] (.list item) rest

/-- Fields of a record, of which the first is a truth value that may be missing. -/
def flagField {β : Type} (name : String) (rest : Fields β) : Fields (Bool × β) :=
  .defaulting name false .flag rest

def kindForm : Form Kind := .choice (Kind.all.map fun k => (k.name, k))

def classificationForm : Form Classification :=
  .choice (Classification.all.map fun c => (c.name, c))

def identifierForm : Form Identifier :=
  .record "struct IdDefinition"
    (.required "name" .text <| .required "type" kindForm <| .required "column" .text .none)
    fun (name, kind, column, _) => { name, kind, column }

def discriminatorForm : Form Discriminator :=
  .record "struct DiscriminatorDefinition"
    (.required "column" .text <| .defaulting "type" .string kindForm <|
      optionalField "value" .text .none)
    fun (column, kind, value, _) => { column, kind, value }

def indexForm : Form Index :=
  .record "struct IndexDefinition"
    (.required "type" kindForm <| .required "column" .text .none)
    fun (kind, column, _) => { kind, column }

/-- A value of the discriminator and the entity that it stands for. -/
def anyValueForm : Form (String × String) :=
  .record "struct AnyValueDefinition"
    (.required "value" .text <| .required "entity" .text .none)
    fun (value, entity, _) => (value, entity)

def anyForm : Form AnyTarget :=
  .record "struct AnyDefinition"
    (.required "discriminator" kindForm <| .required "key" kindForm <|
      .required "discriminator_column" .text <| .required "key_column" .text <|
      listField "values" anyValueForm .none)
    fun (discriminator, key, discriminatorColumn, keyColumn, values, _) =>
      { discriminator, key, discriminatorColumn, keyColumn, values }

def elementForm : Form RawElement :=
  .record "struct ElementDefinition"
    (optionalField "type" kindForm <| optionalField "embedded" .text <|
      optionalField "entity" .text <| optionalField "column" .text <|
      optionalField "column_prefix" .text .none)
    fun (kind, embedded, entity, column, columnStart, _) =>
      { kind, embedded, entity, column, columnStart }

def pluralForm : Form (Plural RawElement) :=
  .record "struct PluralDefinition"
    (.required "classification" classificationForm <| optionalField "table" .text <|
      .required "key_column" .text <| .required "element" elementForm <|
      optionalField "index" indexForm <| optionalField "id_column" .text .none)
    fun (classification, table, keyColumn, element, index, idColumn, _) =>
      { classification, table, keyColumn, element, index, idColumn }

def attributeForm : Form RawAttribute :=
  .record "struct AttributeDefinition"
    (.required "name" .text <| optionalField "type" kindForm <| optionalField "column" .text <|
      optionalField "stored_as" kindForm <| optionalField "embedded" .text <|
      optionalField "column_prefix" .text <| optionalField "to_one" .text <|
      optionalField "join_column" .text <| optionalField "plural" pluralForm <|
      optionalField "any" anyForm <| flagField "generic" .none)
    fun (name, kind, column, storedAs, embedded, columnStart, toOne, joinColumn, plural, any,
        isGeneric, _) =>
      { name, kind, column, storedAs, embedded, columnStart, toOne, joinColumn, plural, any,
        isGeneric }

def embeddableForm : Form (Embeddable RawAttribute) :=
  .record "struct EmbeddableDefinition"
    (.required "name" .text <| listField "attributes" attributeForm .none)
    fun (name, attributes, _) => { name, attributes }

def mappedSupertypeForm : Form (MappedSupertype RawAttribute) :=
  .record "struct MappedSupertypeDefinition"
    (.required "name" .text <| optionalField "supertype" .text <|
      listField "attributes" attributeForm .none)
    fun (name, supertype, attributes, _) => { name, supertype, attributes }

def entityForm : Form (Entity RawAttribute) :=
  .record "struct EntityDefinition"
    (.required "name" .text <| optionalField "table" .text <| optionalField "supertype" .text <|
      flagField "abstract" <| optionalField "id" identifierForm <|
      optionalField "discriminator" discriminatorForm <|
      listField "attributes" attributeForm .none)
    fun (name, table, supertype, isAbstract, identifier, discriminator, attributes, _) =>
      { name, table, supertype, isAbstract, identifier, discriminator, attributes }

/-- How a definition is written. -/
def form : Form (Definition RawAttribute) :=
  .record "struct ModelDefinition"
    (optionalField "name" .text <| listField "embeddables" embeddableForm <|
      listField "mapped_supertypes" mappedSupertypeForm <|
      .required "entities" (.list entityForm) .none)
    fun (name, embeddables, mappedSupertypes, entities, _) =>
      { name, embeddables, mappedSupertypes, entities }

end QueryPath.Definition
