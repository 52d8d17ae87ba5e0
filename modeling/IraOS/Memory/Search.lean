import IraOS.Lib.Ranking
import IraOS.Memory.Store
import Mathlib.Data.Prod.Lex
import Mathlib.Data.List.Infix

/-!
# Searching the memory

`SearchEngine.search` (`core/memory/search.py`): the candidates come out of a set, in whatever order
the set enumerates; each is scored, some are dropped, and the first few of what is left are
returned, sorted by a key.

A score is a sum of halves, and is kept as how many. What is about the characters of a string — the
lower case of a character, which may depend on its neighbours, and how a value prints — is a
parameter.

## Three places where the code is literal

* A query's namespace narrows the candidates only if it is a string with something in it; an empty
  one is taken for none, and so are empty tags.
* A candidate is a result if it scores, or if there is no text in the query. Whether there is text
  is asked of the text as given, and the score is computed from the text trimmed: a text of spaces
  is there, and scores nothing.
* The key is the score, descending, and then the moment of the last update, *ascending*. Two
  results with one key keep the order of the candidates.

The moments compared are numbers here. Moments of which some know their time zone and some do not
cannot be compared in the source, and a search that meets both raises.
-/

set_option autoImplicit false

namespace IraOS

open Lib

/-! ## Strings -/

structure Characters where
  /-- `str()` of what is not a string. -/
  strOf : PyValue → String
  /-- What the character at a position of a string is in lower case. -/
  lowerAt : String → Nat → List Char

namespace Characters

variable (py : Characters)

def str : PyValue → String
  | .str s => s
  | v => py.strOf v

def lower (s : String) : String :=
  String.ofList ((List.range s.toList.length).flatMap (py.lowerAt s))

end Characters

def strip (s : String) : String :=
  String.ofList ((s.toList.dropWhile isSpace).reverse.dropWhile isSpace).reverse

def occurs (text s : String) : Bool := decide (text.toList <:+: s.toList)

/-! ## core/memory/models.py -/

structure SearchQuery where
  text : String := ""
  tags : List String := []
  «namespace» : Option String := none
  limit : Int := 10
  valid : 0 < limit

structure SearchResult where
  record : MemoryRecord
  score : Nat

/-! ## core/memory/indexes.py -/

namespace MemoryIndex

def getByNamespace (index : MemoryIndex) (ns : String) : Finset String :=
  index.byNamespace.bucket ns

def allIds (index : MemoryIndex) : Finset String := index.byId.keys.toFinset

end MemoryIndex

structure Enumerates (order : List String) (ids : Finset String) : Prop where
  nodup : order.Nodup
  mem : ∀ id, id ∈ order ↔ id ∈ ids

/-! ## core/memory/search.py -/

namespace SearchQuery

variable (py : Characters)

def searchText (query : SearchQuery) : String := py.lower (strip query.text)

end SearchQuery

namespace SearchEngine

variable (py : Characters)

def textScore (text : String) (record : MemoryRecord) : Nat :=
  (if occurs text (py.lower record.title) then 4 else 0) +
    (if occurs text (py.lower (py.str record.content)) then 2 else 0) +
    (if occurs text (py.lower record.namespace) then 1 else 0) +
    record.metadata.values.countP fun v => occurs text (py.lower (py.str v))

def scoreRecord (record : MemoryRecord) (query : SearchQuery) : Nat :=
  let text := query.searchText py
  (if text.isEmpty then 0 else textScore py text record) +
    if query.tags.isEmpty then 0
    else 2 * (query.tags.toFinset ∩ record.tags.toFinset).card

def candidateIds (index : MemoryIndex) (query : SearchQuery) : Finset String :=
  match query.namespace with
  | none => index.allIds
  | some ns => if ns.isEmpty then index.allIds else index.getByNamespace ns

/-- A candidate is a result: it scores, or there is no text. -/
def isResult (query : SearchQuery) (record : MemoryRecord) : Bool :=
  decide (0 < scoreRecord py record query) || query.text.isEmpty

def results (index : MemoryIndex) (order : List String) (query : SearchQuery) :
    List SearchResult :=
  order.filterMap fun memoryId =>
    match index.byId.get? memoryId with
    | none => none
    | some record =>
      if isResult py query record then some ⟨record, scoreRecord py record query⟩ else none

def sortKey (item : SearchResult) : Lex (Int × Int) :=
  toLex (-(item.score : Int), item.record.updatedAt)

/-- `search`, where the set of candidates enumerates as `order`. -/
def search (index : MemoryIndex) (order : List String) (query : SearchQuery) :
    Except Exn (List SearchResult) :=
  if query.limit ≤ 0 then .error ⟨.other "SearchError", lit "Search limit must be at least 1."⟩
  else .ok ((sortBy sortKey (results py index order query)).take query.limit.toNat)

theorem search_eq (index : MemoryIndex) (order : List String) (query : SearchQuery) :
    search py index order query =
      .ok ((sortBy sortKey (results py index order query)).take query.limit.toNat) := by
  unfold search
  have hvalid := query.valid
  rw [if_neg (by omega)]

end SearchEngine

end IraOS
