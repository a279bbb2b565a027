import ViewMarkup.Component.Class

/-!
# Scenes

A scene is all that values can refer to: the classes and the objects. It knows what a value is
called and which properties markup knows of it.
-/

namespace ViewMarkup

/-- The classes and the objects that values refer to. -/
structure Scene where
  classes : Classes
  store : Store

namespace Scene

/-- What a value is called in messages. -/
def typeName (sc : Scene) (v : Value) : String :=
  v.typeName fun id => ((sc.store.type? id).map sc.classes.typeName).getD ""

/-- The properties that markup knows of a value. -/
def propertiesOf (sc : Scene) : Value → PropertyTable
  | .object id => ((sc.store.type? id).map sc.classes.propertiesOf).getD []
  | _ => []

/-- The attribute behind a name: that of the property with the name, or else of the name itself. -/
def attributeNamed (sc : Scene) (v : Value) (name : String) : String :=
  (((sc.propertiesOf v).get? name).map (·.target)).getD name

/-- What an object has stored under an attribute, or nothing. -/
def stored (sc : Scene) (id : ObjectId) (attr : String) : Value :=
  (sc.store.field? id attr).getD .none

end Scene
end ViewMarkup
