import BatchScript.Json.Reader
import BatchScript.Text.Quote

/-!
# Lists of items

The items of a loop, written in one of three ways, which are tried in this order:

* a JSON array, whose strings are the items and whose other elements are written compactly;
* items between commas, each trimmed and freed of one pair of quotes, without empty ones;
* items between blanks, each freed of one pair of quotes.
-/

namespace BatchScript.ItemList

/-- The item that an element of an array stands for. -/
def ofElement : Json → String
  | .string value => value
  | value => .ofList value.compact

/-- The items between commas. -/
def betweenCommas (text : List Char) : List String :=
  let items := (Text.pieces (· == ',') text).map fun item => Text.stripQuotes (Text.trim item)
  (items.filter (· ≠ [])).map .ofList

/-- The items between blanks. -/
def betweenBlanks (text : List Char) : List String :=
  (Text.words text).map fun item => .ofList (Text.stripQuotes item)

/-- The items of a text that is no JSON array. -/
def plainItems (text : List Char) : List String :=
  if text.contains ',' then betweenCommas text else betweenBlanks text

/-- The items that a text lists. -/
def expand (raw : List Char) : List String :=
  let text := Text.trim raw
  match if text.head? = some '[' then Json.array? text else none with
  | some elements => elements.map ofElement
  | none => plainItems text

end BatchScript.ItemList
