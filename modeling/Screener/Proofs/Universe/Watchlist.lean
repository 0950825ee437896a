import Screener.Proofs.Sorting
import Screener.Proofs.Universe.Search
import Screener.Universe.Sample

/-!
Watched securities first. The rows on a watchlist come in front of the others, and neither part
changes its order, so the rows that a search finds stay in the order of the universe.
-/

namespace Screener

namespace Universe

open Text

/-- Rows on a watchlist, and then the others. -/
theorem watchedFirst_eq (watchlist : List String) (rows : List Security)
    : watchedFirst watchlist rows
      = rows.filter (fun s => s.code ∈ watchlist)
        ++ rows.filter fun s => s.code ∉ watchlist := by
  have watched (s : Security) : watchlist.contains s.code = decide (s.code ∈ watchlist) :=
    List.contains_eq_mem s.code watchlist
  simp only [watchedFirst, mergeSort_choice, watched, decide_not]

theorem perm_watchedFirst (watchlist : List String) (rows : List Security)
    : (watchedFirst watchlist rows).Perm rows :=
  List.mergeSort_perm rows _

/-- Only the codes on a watchlist matter, and not how often or where they stand. -/
theorem watchedFirst_congr {watchlist watchlist' : List String}
    (same : ∀ code, code ∈ watchlist ↔ code ∈ watchlist') (rows : List Security)
    : watchedFirst watchlist rows = watchedFirst watchlist' rows := by
  simp only [watchedFirst_eq, same]

/-- Rows that are in order stay as they are: the watched ones among them are all in front. -/
theorem watchedFirst_watchedFirst (watchlist : List String) (rows : List Security)
    : watchedFirst watchlist (watchedFirst watchlist rows) = watchedFirst watchlist rows := by
  simp only [watchedFirst_eq, List.filter_append, List.filter_filter, ← Bool.decide_and,
    and_self, not_and_self, and_not_self, decide_false, List.filter_false, List.append_nil,
    List.nil_append]

/-- The rows that a search finds, those on a watchlist first. -/
theorem watchedFirst_search (watchlist : List String) (securities : List Security)
    (query : String)
    : watchedFirst watchlist (search securities query)
      = securities.filter
          (fun s => s.code ∈ watchlist ∧ lower (trim query.toList) <:+: s.searchText)
        ++ securities.filter
          (fun s => s.code ∉ watchlist ∧ lower (trim query.toList) <:+: s.searchText) := by
  have found
      : search securities query
        = securities.filter fun s => lower (trim query.toList) <:+: s.searchText := by
    refine List.filter_congr fun s _ => ?_
    rw [Bool.eq_iff_iff, contains_iff, decide_eq_true_iff]
  rw [watchedFirst_eq, found, List.filter_filter, List.filter_filter]
  simp only [Bool.decide_and]

/-- Rows on a watchlist come first, and both parts stay in order. So no row is lost or added, rows
that are in order stay so, and watchlists with the same codes give the same. Of the rows that a
search finds, both parts are in the order of the universe.
-/
theorem watchedFirst_law (watchlist : List String) (rows : List Security)
    : watchedFirst watchlist rows
        = rows.filter (fun s => s.code ∈ watchlist)
          ++ rows.filter (fun s => s.code ∉ watchlist)
      ∧ (watchedFirst watchlist rows).Perm rows
      ∧ watchedFirst watchlist (watchedFirst watchlist rows) = watchedFirst watchlist rows
      ∧ (∀ watchlist', (∀ code, code ∈ watchlist ↔ code ∈ watchlist') →
        watchedFirst watchlist rows = watchedFirst watchlist' rows)
      ∧ ∀ securities query,
        watchedFirst watchlist (search securities query)
          = securities.filter
              (fun s => s.code ∈ watchlist ∧ lower (trim query.toList) <:+: s.searchText)
            ++ securities.filter
              (fun s => s.code ∉ watchlist ∧ lower (trim query.toList) <:+: s.searchText) := by
  refine ⟨watchedFirst_eq watchlist rows, perm_watchedFirst watchlist rows,
    watchedFirst_watchedFirst watchlist rows, ?_, watchedFirst_search watchlist⟩
  intro watchlist' same
  exact watchedFirst_congr same rows

/-- Witness: two watchlists with the same codes, one of which has a code twice. The watched rows
come in the order of the sample, from behind rows that are not watched.
-/
theorem watchedFirst_law_sample
    : (∀ code, code ∈ ["300059", "600036"] ↔ code ∈ ["600036", "300059", "600036"])
      ∧ watchedFirst ["300059", "600036"] sample
        = watchedFirst ["600036", "300059", "600036"] sample
      ∧ ((watchedFirst ["300059", "600036"] sample).map Security.code).take 4
        = ["600036", "300059", "600519", "300750"] := by
  have same : ∀ code, code ∈ ["300059", "600036"] ↔ code ∈ ["600036", "300059", "600036"] := by
    intro code
    simp only [List.mem_cons, List.not_mem_nil, or_false]
    tauto
  obtain ⟨parts, -, -, congr, -⟩ := watchedFirst_law ["300059", "600036"] sample
  refine ⟨same, congr _ same, ?_⟩
  rw [parts]
  decide +kernel

end Universe

end Screener
