import Screener.Security.Basic
import Screener.Text.Blank
import Screener.Text.Lowercase
import Screener.Text.Substring

/-!
A universe is the list of securities that a provider offers. Searching keeps its order.
-/

namespace Screener

/-- The text that a search looks through: code, name, industry and concepts in lowercase. -/
def Security.searchText (s : Security) : List Char :=
  Text.lower
    (String.intercalate " "
      [s.code, s.name, s.industry, String.intercalate " " s.profile.concepts]).toList

namespace Universe

/-- The securities whose search text holds a query, blanks around it and case aside. A blank
query is held by all.
-/
def search (securities : List Security) (query : String) : List Security :=
  let wanted := Text.lower (Text.trim query.toList)
  securities.filter fun s => Text.contains wanted s.searchText

/-- The first security with a code, blanks around it aside. -/
def find? (securities : List Security) (code : String) : Option Security :=
  let code := Text.trimmed code
  securities.find? fun s => s.code == code

/-- The rows with those on a watchlist moved to the front. -/
def watchedFirst (watchlist : List String) (rows : List Security) : List Security :=
  rows.mergeSort fun a b => watchlist.contains a.code || !watchlist.contains b.code

end Universe

end Screener
