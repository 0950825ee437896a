import Mathlib.Data.List.Infix
import Screener.Universe.Basic
import Screener.Proofs.Text.Sigma
import Screener.Proofs.Text.Substring

/-!
Searching a universe. A query without spaces is found where the lowercase form of one field holds
it, since no such query reaches over the space between two fields. A query that is part of a field
as it is written is found there if its capital sigmas have the same lowercase forms in the field as
in the query alone.
-/

namespace Screener

/-- The texts of a security that a search looks through. -/
def Security.texts (s : Security) : List String :=
  s.code :: s.name :: s.industry :: s.profile.concepts

namespace Universe

open Text

variable {s : Security} {word : List Char}

-----------------------------------------------------------------------------------------
-- The search text
-----------------------------------------------------------------------------------------

/-- The fields are lowercased on their own, as the spaces between them keep words apart. -/
theorem searchText_eq (s : Security)
    : s.searchText
      = [' '].intercalate
          [lower s.code.toList, lower s.name.toList, lower s.industry.toList,
            [' '].intercalate (s.profile.concepts.map fun concept => lower concept.toList)] := by
  have space : keepsApart ' ' = true := keepsApart_of_isBlank rfl
  have separator : " ".toList = [' '] := rfl
  rw [Security.searchText, String.toList_intercalate, separator, lower_intercalate space]
  simp only [List.map_cons, List.map_nil, String.toList_intercalate, separator,
    lower_intercalate space, List.map_map]
  rfl

/-- A word without spaces stands in the search text if it stands in a field. -/
theorem infix_searchText_iff (some : word ≠ []) (solid : ' ' ∉ word)
    : word <:+: s.searchText ↔ ∃ text ∈ s.texts, word <:+: lower text.toList := by
  rw [searchText_eq, infix_intercalate_iff some solid]
  simp [Security.texts, infix_intercalate_iff some solid]

/-- The lowercase form of a field stands in the search text. -/
theorem infix_searchText {text : String} (member : text ∈ s.texts)
    : lower text.toList <:+: s.searchText := by
  have joined {piece : List Char} {pieces : List (List Char)} (inside : piece ∈ pieces)
      : piece <:+: [' '].intercalate pieces := by
    obtain ⟨before, after, whole⟩ := intercalate_of_mem [' '] inside
    exact ⟨before, after, whole.symm⟩
  rw [searchText_eq]
  simp only [Security.texts, List.mem_cons] at member
  rcases member with rfl | rfl | rfl | concept
  · exact joined (by simp)
  · exact joined (by simp)
  · exact joined (by simp)
  · have inner := joined (List.mem_map_of_mem (f := fun concept => lower concept.toList) concept)
    exact inner.trans (joined (by simp))

/-- A search finds the securities whose search text holds the query. -/
theorem mem_search_iff {securities : List Security} {query : String}
    : s ∈ search securities query
      ↔ s ∈ securities ∧ lower (trim query.toList) <:+: s.searchText := by
  rw [search, List.mem_filter, contains_iff]

-----------------------------------------------------------------------------------------
-- Queries without spaces
-----------------------------------------------------------------------------------------

/-- What a search finds. A blank query finds all securities, and a query without spaces finds those
with a field that holds it, case aside, in their order.
-/
theorem search_eq_filter (securities : List Security) (query : String)
    : (trim query.toList = [] → search securities query = securities)
      ∧ (lower (trim query.toList) ≠ [] → ' ' ∉ lower (trim query.toList) →
          search securities query
            = securities.filter fun s =>
                ∃ text ∈ s.texts, lower (trim query.toList) <:+: lower text.toList) := by
  constructor
  · intro blank
    refine List.filter_eq_self.2 fun s _ => ?_
    rw [blank, contains_iff]
    exact List.nil_infix
  · intro some solid
    refine List.filter_congr fun s _ => ?_
    rw [Bool.eq_iff_iff, contains_iff, decide_eq_true_iff]
    exact infix_searchText_iff some solid

/-- A security whose name ends in a sigma. -/
def island : Security :=
  ⟨"1", "ΚΩΣ", "航运", 1, 1, 1, 1, 1, ⟨false, false, false⟩, ⟨"", ["海 岛"]⟩⟩

/-- The whole name is a query without spaces. -/
theorem search_eq_filter_island
    : (lower (trim "　κΩΣ ".toList) ≠ [] ∧ ' ' ∉ lower (trim "　κΩΣ ".toList))
      ∧ search [island] "　κΩΣ "
        = [island].filter fun s =>
            ∃ text ∈ s.texts, lower (trim "　κΩΣ ".toList) <:+: lower text.toList := by
  have terms
      : lower (trim "　κΩΣ ".toList) ≠ [] ∧ ' ' ∉ lower (trim "　κΩΣ ".toList) := by
    decide +kernel
  exact ⟨terms, (search_eq_filter [island] "　κΩΣ ").2 terms.1 terms.2⟩

-----------------------------------------------------------------------------------------
-- Queries that are part of a field
-----------------------------------------------------------------------------------------

/-- A security is found by a part of a field that has the same capital sigmas there as alone. -/
theorem mem_search_of_sameSigmas {securities : List Security} {query : String}
    (inside : s ∈ securities) {text : String} (member : text ∈ s.texts)
    {before after : List Char} (whole : text.toList = before ++ trim query.toList ++ after)
    (same : SameSigmas before (trim query.toList) after)
    : s ∈ search securities query := by
  refine mem_search_iff.2 ⟨inside, same.infix.trans ?_⟩
  rw [← whole]
  exact infix_searchText member

/-- A security of which nothing is known but its code. -/
def coded (code : List Char) : Security :=
  ⟨String.ofList code, "", "", .nan, .nan, .nan, .nan, .nan, ⟨false, false, false⟩, ⟨"", []⟩⟩

theorem searchText_coded (code : List Char)
    : (coded code).searchText = lower code ++ [' ', ' ', ' '] := by
  have none : lower [] = [] := rfl
  rw [searchText_eq]
  simp [coded, none, List.intercalate_cons_cons]

/-- A query with a capital sigma that is not settled within it does not find some security that it
is part of the code of: the lowercase form of that code has too few sigmas of one form.
-/
theorem exists_not_mem_search {query : String} (unsettled : ¬Settled (trim query.toList))
    : ∃ s : Security, trim query.toList <:+: s.code.toList ∧ s ∉ search [s] query := by
  obtain ⟨before, after, x, form, less⟩ := exists_count_lt unsettled
  refine ⟨coded (before ++ trim query.toList ++ after), ⟨before, after, ?_⟩, fun found => ?_⟩
  · rw [coded, String.toList_ofList]
  · have inside := (mem_search_iff.1 found).2
    rw [searchText_coded] at inside
    have most := inside.sublist.count_le x
    have spaces : [' ', ' ', ' '].count x = 0 := by
      rcases form with rfl | rfl <;> decide
    rw [List.count_append, spaces] at most
    omega

/-- When a part of a field finds the security. It does where its capital sigmas have the same
lowercase forms in the field as in the query alone. For a query to find every security that it is
part of a field of, each of its sigmas has to be settled within it, as in a query without any.
-/
theorem search_piece_iff (query : String)
    : (∀ securities, ∀ s ∈ securities, ∀ text ∈ s.texts, ∀ before after,
          text.toList = before ++ trim query.toList ++ after →
            SameSigmas before (trim query.toList) after → s ∈ search securities query)
      ∧ ((∀ securities, ∀ s ∈ securities, ∀ text ∈ s.texts,
            trim query.toList <:+: text.toList → s ∈ search securities query)
          ↔ Settled (trim query.toList))
      ∧ ('Σ' ∉ trim query.toList → Settled (trim query.toList)) := by
  refine ⟨fun securities s inside text member before after whole same =>
    mem_search_of_sameSigmas inside member whole same, ⟨fun found => ?_, fun settled => ?_⟩, ?_⟩
  · refine Classical.byContradiction fun unsettled => ?_
    obtain ⟨s, part, missed⟩ := exists_not_mem_search unsettled
    exact missed (found [s] s (by simp) s.code (by simp [Security.texts]) part)
  · rintro securities s inside text member ⟨before, after, whole⟩
    exact mem_search_of_sameSigmas inside member whole.symm (settled.sameSigmas before after)
  · intro plain front back split
    exact absurd (split ▸ by simp) plain

/-- A sigma alone is no final one, and the name has a final one. -/
theorem search_loneSigma
    : trim "Σ".toList ≠ [] ∧ trim "Σ".toList <:+: island.name.toList
      ∧ search [island] "Σ" = [] := by
  refine ⟨by decide, ⟨['Κ', 'Ω'], [], by decide⟩, by decide +kernel⟩

end Universe

end Screener
