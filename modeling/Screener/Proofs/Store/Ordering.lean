import Screener.Proofs.Sorting
import Screener.Proofs.Store.Creations
import Screener.Proofs.Time.Instant

/-!
Listings in the order of time. A store of texts orders rows by the bytes of their times, which is
the order of the moments that they name, so what is newer comes first whatever the rows are, and
of what is as new the row that came later.
-/

namespace Screener

variable {α : Type}

/-- Each row has the text of an ordinary moment. -/
def Stamped (time : α → String) (moment : α → Timestamp) (rows : List α) : Prop :=
  ∀ row ∈ rows, (moment row).Ordinary ∧ time row = (moment row).microsText

section Rows

variable {time : α → String} {moment : α → Timestamp} {rows : List α}

/-- The texts of two rows are ordered as their moments. -/
theorem Stamped.lt_iff (stamped : Stamped time moment rows) {a b : α} (memberA : a ∈ rows)
    (memberB : b ∈ rows)
    : time a < time b ↔ (moment a).instant < (moment b).instant := by
  obtain ⟨ordinaryA, textA⟩ := stamped a memberA
  obtain ⟨ordinaryB, textB⟩ := stamped b memberB
  rw [textA, textB]
  exact ordinaryA.microsText_lt_iff ordinaryB

theorem Stamped.filter (stamped : Stamped time moment rows) (p : α → Bool)
    : Stamped time moment (rows.filter p) :=
  fun row member => stamped row (List.mem_filter.1 member).1

end Rows

namespace DocumentStore

section Listing

variable {time : α → String} {moment : α → Timestamp} {rows : List α}

end Listing

namespace TwoYears

def old : Timestamp := ⟨⟨1999, 12, 31, by decide⟩, 86399, 999999000, by decide, by decide⟩

def new : Timestamp := ⟨⟨2000, 2, 29, by decide⟩, 61, 12000, by decide, by decide⟩

def strategyRow (id : String) (t : Timestamp) : StrategyRow := rowOf id (.draft t)

def runRow (id : String) (t : Timestamp) : RunRow := runRowOf ⟨id, "stg_1", .null, .null, t⟩

/-- The newest strategy lies between older ones, and the newest run was recorded first. -/
def store : DocumentStore :=
  ⟨[strategyRow "stg_1" old, strategyRow "stg_2" new, strategyRow "stg_3" old],
    [runRow "run_1" new, runRow "run_2" old]⟩

end TwoYears

end DocumentStore

end Screener
