namespace ClassFacts.Tables

/-- Types that hold one plain value, by simple or qualified name and without regard to case. -/
def scalarTypes : List String :=
  ["int", "integer", "long", "double", "float", "short", "byte", "char", "character", "boolean",
   "string", "bigdecimal", "biginteger", "date", "localdate", "localtime", "localdatetime",
   "zoneddatetime", "offsetdatetime", "instant", "uuid", "java.lang.integer", "java.lang.long",
   "java.lang.double", "java.lang.float", "java.lang.short", "java.lang.byte",
   "java.lang.character", "java.lang.boolean", "java.lang.string", "java.math.bigdecimal",
   "java.math.biginteger", "java.util.date", "java.time.localdate", "java.time.localtime",
   "java.time.localdatetime", "java.time.zoneddatetime", "java.time.offsetdatetime",
   "java.time.instant", "java.util.uuid"]

/-- Qualified names of collections. -/
def collectionTypes : List String :=
  ["java.util.Collection", "java.util.List", "java.util.ArrayList", "java.util.LinkedList",
   "java.util.Set", "java.util.HashSet", "java.util.LinkedHashSet", "java.util.SortedSet",
   "java.util.TreeSet", "java.util.Queue", "java.util.Deque", "java.util.ArrayDeque",
   "java.util.PriorityQueue", "java.lang.Iterable"]

/-- Qualified names of maps. -/
def mapTypes : List String :=
  ["java.util.Map", "java.util.HashMap", "java.util.LinkedHashMap", "java.util.SortedMap",
   "java.util.TreeMap", "java.util.Hashtable", "java.util.Properties",
   "java.util.concurrent.ConcurrentMap", "java.util.concurrent.ConcurrentHashMap"]

/-- Simple names of base types that have no fields of interest and end a hierarchy. -/
def opaqueTerminators : List String :=
  ["Object", "Timestamp", "Date", "Locale"]

/-- Simple names of annotations that may list validation groups. -/
def validatorAnnotations : List String :=
  ["NotNull", "NotEmpty", "NotBlank", "Null", "AssertTrue", "AssertFalse", "Min", "Max",
   "DecimalMin", "DecimalMax", "Digits", "Size", "Length", "Range", "Pattern", "Email", "URL",
   "Past", "PastOrPresent", "Future", "FutureOrPresent", "Positive", "PositiveOrZero", "Negative",
   "NegativeOrZero", "CreditCardNumber", "Valid"]

def cascadingMarker : String := "Validated"

def valueProperty : String := "value"

def groupsProperty : String := "groups"

def maxHierarchyDepth : Nat := 64

end ClassFacts.Tables
