import BlueprintSchema.SemanticType

/-!
The types that the methods of facades and query builders return, narrowed to the classes that they
really produce.
-/

namespace BlueprintSchema.ReturnType

def entryFacade : String := "Statamic\\Facades\\Entry"

def collectionFacade : String := "Statamic\\Facades\\Collection"

def globalSetFacade : String := "Statamic\\Facades\\GlobalSet"

def facades : List String := [entryFacade, collectionFacade, globalSetFacade]

def entryClass : String := "Statamic\\Entries\\Entry"

def collectionClass : String := "Statamic\\Entries\\Collection"

def globalSetClass : String := "Statamic\\Globals\\GlobalSet"

def entryQueryBuilder : String := "Statamic\\Stache\\Query\\EntryQueryBuilder"

def resultCollection : String := "Illuminate\\Support\\Collection"

def builderModels : List (String × String) :=
  [(entryQueryBuilder, entryClass),
   ("Statamic\\Stache\\Query\\TermQueryBuilder", "Statamic\\Taxonomies\\LocalizedTerm"),
   ("Statamic\\Assets\\QueryBuilder", "Statamic\\Assets\\Asset")]

def ofStaticCall? (className method : String) : Option SemanticType :=
  let c := bareClass className
  if c = entryFacade then
    if method = "query" then some (.instanceOf entryQueryBuilder)
    else if method = "find" ∨ method = "findByUri" then some (.nullable (.instanceOf entryClass))
    else if method = "findOrFail" ∨ method = "make" then some (.instanceOf entryClass)
    else none
  else if c = collectionFacade then
    if method = "find" ∨ method = "findByHandle" then
      some (.nullable (.instanceOf collectionClass))
    else if method = "findOrFail" then some (.instanceOf collectionClass)
    else none
  else if c = globalSetFacade then
    if method = "find" ∨ method = "findByHandle" then
      some (.nullable (.instanceOf globalSetClass))
    else if method = "findOrFail" then some (.instanceOf globalSetClass)
    else none
  else none

/-- The model of the first class that is a known query builder. -/
def modelOfBuilder? (classes : List String) : Option String :=
  classes.findSome? fun c => builderModels.lookup (bareClass c)

def ofMethodCall? (classes : List String) (method : String) : Option SemanticType :=
  (modelOfBuilder? classes).bind fun model =>
    let item := SemanticType.instanceOf model
    if method = "get" then some (.genericOf resultCollection [.int, item])
    else if method = "first" ∨ method = "find" then some (.nullable item)
    else if method = "firstOrFail" then some item
    else if method = "count" then some .int
    else if method = "exists" then some .bool
    else none

end BlueprintSchema.ReturnType
