import Nominal.Types.Registry

/-!
# The Catalogue of Library Types

Programs use types that they do not declare. A small catalogue tells which of them there
are, by namespace, name and number of type arguments, and what their members are. The
type of a member may be the type it is looked up on, or be built of its arguments; such a
type may still have to be registered, so it is told as a `Derived` type.

Whatever can be enumerated takes the query methods. Those among them that take a function
of an element are listed apart, because the function is then given the type of the
element.

## Main definitions

* `Catalogue.types`: The types of the library.
* `Catalogue.isNamespace`: Whether a path leads to types of the library.
* `Derived`: A known type, or the shape of one to register.
* `Catalogue.elementType?`: What a type is an enumeration of.
* `Catalogue.instanceMember?` and `Catalogue.staticMember?`: The types of members.
* `Catalogue.instanceMethod?` and `Catalogue.staticMethod?`: The types of calls.
* `Catalogue.query?`: The type of a query method.
-/

namespace Nominal

namespace Types

/-- A known type, or the shape of one that may have to be registered. -/
inductive Derived where
  | known (type : TypeId)
  | shaped (shape : Shape)

namespace Derived

/-- The number of a derived type, which is registered if it has not been. -/
def intern (r : Registry) : Derived → TypeId × Registry
  | known t => (t, r)
  | shaped s => r.intern s

/-- A primitive type. -/
def primitive (p : Primitive) : Derived := known (.primitive p)

end Derived

/-- A type of the library. -/
structure LibraryType where
  home : Namespace
  name : String
  arity : Nat
deriving DecidableEq, Repr

namespace Catalogue

/-- The namespace of the basic types. -/
def system : Namespace := ["System"]

/-- The namespace of the types for text. -/
def systemText : Namespace := ["System", "Text"]

/-- The namespace of the types that hold others. -/
def collections : Namespace := ["System", "Collections", "Generic"]

/-- The types of the library. -/
def types : List LibraryType :=
  [⟨system, "DateTime", 0⟩, ⟨system, "Guid", 0⟩, ⟨system, "TimeSpan", 0⟩,
   ⟨system, "Uri", 0⟩, ⟨system, "Exception", 0⟩, ⟨systemText, "StringBuilder", 0⟩,
   ⟨collections, "List", 1⟩, ⟨collections, "Dictionary", 2⟩, ⟨collections, "IEnumerable", 1⟩]

/-- Whether the library has a type of a name and number of arguments in a namespace. -/
def has (home : Namespace) (name : String) (arity : Nat) : Bool :=
  types.contains ⟨home, name, arity⟩

/-- Whether the library has a type of a name and number of arguments anywhere. -/
def hasNamed (name : String) (arity : Nat) : Bool :=
  types.any fun t => t.name == name && t.arity == arity

/-- Whether a path is that of a namespace of the library or of one around it. -/
def isNamespace (path : Namespace) : Bool :=
  types.any fun t => !path.isEmpty && path.isPrefixOf t.home

/-- Whether a name is a part of the path of a namespace of the library. -/
def hasSegment (name : String) : Bool := types.any fun t => t.home.contains name

/-- The type of what enumerates elements. -/
def enumerableOf (element : TypeId) : Derived :=
  .shaped (.named collections "IEnumerable" [element])

/-- The type of a list of elements. -/
def listOf (element : TypeId) : Derived := .shaped (.named collections "List" [element])

/-- What a type is an enumeration of. -/
def elementType? (r : Registry) (t : TypeId) : Option TypeId :=
  match r.shape? t with
  | some (.array element) => some element
  | some (.primitive .string) => some (.primitive .char)
  | some (.named home name [element]) =>
    if home = collections ∧ (name = "List" ∨ name = "IEnumerable") then some element else none
  | _ => none

/-- The type of what an index into a value of a type gives. -/
def indexed? (r : Registry) (t : TypeId) : Option TypeId :=
  match r.shape? t with
  | some (.named home name args) =>
    if home = collections ∧ name = "Dictionary" then args[1]?
    else if name = "IEnumerable" then none
    else elementType? r t
  | _ => elementType? r t

/-- How the type of a member follows from the type that it is looked up on. -/
inductive Result where
  /-- It is the same type. -/
  | owner
  | primitive (p : Primitive)
  | void
  /-- It is a basic type of the library. -/
  | basic (name : String)
  /-- It enumerates the values of an argument of the type. -/
  | enumerates (arg : Nat)

namespace Result

/-- The type that follows from the type `owner` with the arguments `args`. -/
def derive? (owner : TypeId) (args : List TypeId) : Result → Option Derived
  | .owner => some (.known owner)
  | .primitive p => some (.primitive p)
  | .void => some (.known .void)
  | .basic name => some (.shaped (.named system name []))
  | .enumerates arg => args[arg]?.map enumerableOf

end Result

/-- Members of a type of the library that have types of the same sort. -/
structure Entry where
  home : Namespace
  name : String
  members : List String
  result : Result

/-- The type of a member by a list of entries, for types that have a namespace. -/
def find? (entries : List Entry) (r : Registry) (owner : TypeId) (member : String) :
    Option Derived :=
  match r.shape? owner with
  | some (.named home name args) =>
    match entries.find? fun e =>
        e.home == home && e.name == name && e.members.contains member with
    | some e => e.result.derive? owner args
    | none => none
  | _ => none

/-- Members of the values of types. -/
def instanceMembers : List Entry :=
  [⟨system, "DateTime", ["Year", "Month", "Day", "Hour", "Minute", "Second"], .primitive .int⟩,
   ⟨system, "DateTime", ["Date"], .owner⟩,
   ⟨system, "DateTime", ["TimeOfDay"], .basic "TimeSpan"⟩,
   ⟨system, "TimeSpan", ["Days", "Hours", "Minutes", "Seconds"], .primitive .int⟩,
   ⟨system, "TimeSpan", ["TotalDays", "TotalHours", "TotalSeconds"], .primitive .double⟩,
   ⟨system, "Uri", ["Host", "AbsoluteUri", "Scheme"], .primitive .string⟩,
   ⟨system, "Exception", ["Message"], .primitive .string⟩,
   ⟨systemText, "StringBuilder", ["Length"], .primitive .int⟩,
   ⟨collections, "List", ["Count"], .primitive .int⟩,
   ⟨collections, "Dictionary", ["Count"], .primitive .int⟩,
   ⟨collections, "Dictionary", ["Keys"], .enumerates 0⟩,
   ⟨collections, "Dictionary", ["Values"], .enumerates 1⟩]

/-- Members of types themselves. -/
def staticMembers : List Entry :=
  [⟨system, "DateTime", ["Now", "UtcNow", "Today", "MinValue", "MaxValue"], .owner⟩,
   ⟨system, "Guid", ["Empty"], .owner⟩,
   ⟨system, "TimeSpan", ["Zero"], .owner⟩]

/-- Methods of the values of types. -/
def instanceMethods : List Entry :=
  [⟨system, "DateTime", ["AddDays", "AddHours", "AddMinutes", "AddYears"], .owner⟩,
   ⟨systemText, "StringBuilder", ["Append", "AppendLine"], .owner⟩,
   ⟨collections, "List", ["Add", "Clear"], .void⟩,
   ⟨collections, "List", ["Contains"], .primitive .bool⟩,
   ⟨collections, "Dictionary", ["ContainsKey"], .primitive .bool⟩,
   ⟨collections, "Dictionary", ["Add"], .void⟩]

/-- Methods of types themselves. -/
def staticMethods : List Entry :=
  [⟨system, "Guid", ["NewGuid", "Parse"], .owner⟩,
   ⟨system, "DateTime", ["Parse"], .owner⟩,
   ⟨system, "TimeSpan", ["FromDays", "FromHours", "FromMinutes", "FromSeconds"], .owner⟩]

/-- The methods that every value has. -/
def objectMethods : List (String × Primitive) :=
  [("Equals", .bool), ("GetHashCode", .int), ("ToString", .string)]

/-- The methods of strings. -/
def stringMethods : List (List String × Primitive) :=
  [(["ToUpper", "ToLower", "Trim", "Substring", "Replace"], .string),
   (["Contains", "StartsWith", "EndsWith"], .bool),
   (["IndexOf"], .int)]

/-- The type of a member of the values of a type. -/
def instanceMember? (r : Registry) (owner : TypeId) (member : String) : Option Derived :=
  match r.shape? owner with
  | some (.array _) | some (.primitive .string) =>
    if member = "Length" then some (.primitive .int) else none
  | _ => find? instanceMembers r owner member

/-- The type of a member of a type itself. -/
def staticMember? (r : Registry) (owner : TypeId) (member : String) : Option Derived :=
  if r.primitive? owner = some .string then
    if member = "Empty" then some (.known owner) else none
  else find? staticMembers r owner member

/-- The type of a call of a method of a type itself. -/
def staticMethod? (r : Registry) (owner : TypeId) (method : String) : Option Derived :=
  if r.primitive? owner = some .string then
    if ["Join", "Format", "Concat"].contains method then some (.known owner) else none
  else find? staticMethods r owner method

/-- The query methods that take a function of an element. -/
def elementQueries : List String :=
  ["Select", "Where", "OrderBy", "OrderByDescending", "Any", "All", "First",
   "FirstOrDefault", "Count"]

/-- The query methods that are known to take part in a chain of queries. -/
def queries : List String := elementQueries ++ ["ToList", "ToArray", "Distinct", "Reverse"]

/-- The type of a query over elements, given what the function of an element gives. -/
def query? (method : String) (element : TypeId) (projected : Option TypeId) : Option Derived :=
  if method = "Select" then projected.map enumerableOf
  else if ["Where", "OrderBy", "OrderByDescending", "Distinct", "Skip", "Take",
      "Reverse"].contains method then some (enumerableOf element)
  else if ["First", "FirstOrDefault", "Last", "LastOrDefault", "Single"].contains method then
    some (.known element)
  else if method = "ToList" then some (listOf element)
  else if method = "ToArray" then some (.shaped (.array element))
  else if ["Any", "All"].contains method then some (.primitive .bool)
  else if method = "Count" then some (.primitive .int)
  else none

/-- The type of a query on a value that can be enumerated and is no string. -/
def plainQuery? (r : Registry) (owner : TypeId) (method : String) : Option Derived :=
  if (r.primitive? owner).isSome then none
  else (elementType? r owner).bind fun element => query? method element none

/-- The type of a call of a method of the values of a type. -/
def instanceMethod? (r : Registry) (owner : TypeId) (method : String) : Option Derived :=
  match objectMethods.find? fun m => m.1 == method with
  | some (_, p) => some (.primitive p)
  | none =>
    match plainQuery? r owner method with
    | some derived => some derived
    | none =>
      if r.primitive? owner = some .string then
        (stringMethods.find? fun m => m.1.contains method).map fun m => .primitive m.2
      else find? instanceMethods r owner method

end Catalogue

end Types

end Nominal
