import Authorization.Content.Tree
import Authorization.Dictionary

/-!
# Stored restrictions

The restrictions of an access control entry are stored as properties of a child node of the entry,
each under its own name.
-/

namespace Authorization

/-- The properties stored with an access control entry to restrict it. -/
abbrev RestrictionStore := Dictionary Property

namespace RestrictionStore

def nodeName : String := "rep:restrictions"

/-- The restrictions stored below the tree of an entry. The primary type of the node that holds
them is not one of them. -/
def ofTree (entry : Tree) : RestrictionStore :=
  Dictionary.ofList <|
    (((entry.child nodeName).state.properties).filter fun property =>
      property.name ≠ Node.primaryType).map fun property => (property.name, property)

/-- The store with a property put under its name, in place of the one that was there. -/
def put (store : RestrictionStore) (property : Property) : RestrictionStore :=
  store.insert property.name property

end RestrictionStore

end Authorization
