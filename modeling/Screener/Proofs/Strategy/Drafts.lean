import Screener.Proofs.Json.Finite
import Screener.Proofs.Phrase.Merging
import Screener.Proofs.Strategy.Conduct
import Screener.Proofs.Strategy.ReadBack
import Screener.Strategy.Form

/-!
Drafts and their limits. A form takes finite numbers only, and a document holds no others; a
text may name a number beyond the greatest finite one, and sets an infinite limit then.
-/

namespace Screener

open Json (Layout Tree all_isFinite_of_source)

-----------------------------------------------------------------------------------------
-- Limits of documents
-----------------------------------------------------------------------------------------

/-- The limits of filters are absent or finite. -/
def Filters.Finite (f : Filters) : Prop :=
  f.peMax.all Binary64.isFinite = true ∧ f.mcapMaxYi.all Binary64.isFinite = true
    ∧ f.turnMinPct.all Binary64.isFinite = true

def Exits.Finite (e : Exits) : Prop :=
  e.takeProfitPct.all Binary64.isFinite = true ∧ e.stopLossPct.all Binary64.isFinite = true

theorem Strategy.finite_iff {s : Strategy} : s.Finite ↔ s.filters.Finite ∧ s.exits.Finite := by
  have limits : s.Finite ↔ ∀ part : Phrase.Limit, (part.get s).all Binary64.isFinite = true :=
    forall_congr' fun part => (Option.all_eq_true _ _).symm
  rw [limits]
  constructor
  · intro all
    exact ⟨⟨all .peMax, all .mcapMaxYi, all .turnMinPct⟩, all .takeProfitPct, all .stopLossPct⟩
  · rintro ⟨⟨peMax, mcapMaxYi, turnMinPct⟩, takeProfitPct, stopLossPct⟩ part
    cases part with
    | peMax => exact peMax
    | mcapMaxYi => exact mcapMaxYi
    | turnMinPct => exact turnMinPct
    | takeProfitPct => exact takeProfitPct
    | stopLossPct => exact stopLossPct

theorem Strategy.Finite.of_sameRule {s t : Strategy} (finite : s.Finite) (same : s.SameRule t)
    : t.Finite := by
  rw [finite_iff, ← same.filters, ← same.exits]
  exact finite_iff.1 finite

theorem Filters.finite_of_ofTree? {t : Tree} {f : Filters} (said : ofTree? t = some f)
    : f.Finite := by
  obtain ⟨_, decoded, rfl⟩ := Option.map_eq_some_iff.1 said
  obtain ⟨peMax, mcapMaxYi, turnMinPct, _⟩ := Layout.sourced_of_decode decoded
  exact ⟨all_isFinite_of_source peMax, all_isFinite_of_source mcapMaxYi,
    all_isFinite_of_source turnMinPct⟩

theorem Exits.finite_of_ofTree? {t : Tree} {e : Exits} (said : ofTree? t = some e)
    : e.Finite := by
  obtain ⟨_, decoded, rfl⟩ := Option.map_eq_some_iff.1 said
  obtain ⟨takeProfitPct, stopLossPct, _⟩ := Layout.sourced_of_decode decoded
  exact ⟨all_isFinite_of_source takeProfitPct, all_isFinite_of_source stopLossPct⟩

namespace Strategy

/-- A strategy that is read from a document has finite limits. -/
theorem finite_of_parse {now : Option Timestamp} {text : String} {s : Strategy}
    (read : parse now text = .ok s)
    : s.Finite := by
  obtain ⟨w, _, said⟩ := (parse_eq_ok now).1 read
  obtain ⟨⟨_, _, _, filters, exits, _⟩, decoded, rfl⟩ := Option.map_eq_some_iff.1 said
  obtain ⟨_, _, _, filtered, left, _⟩ := Layout.sourced_of_decode decoded
  have ofFilters : filters.Finite := by
    rcases filtered with ⟨t, said⟩ | absent
    · exact Filters.finite_of_ofTree? said
    · obtain rfl := Option.some.inj absent
      exact ⟨rfl, rfl, rfl⟩
  have ofExits : exits.Finite := by
    rcases left with ⟨t, said⟩ | absent
    · exact Exits.finite_of_ofTree? said
    · obtain rfl := Option.some.inj absent
      exact ⟨rfl, rfl⟩
  exact finite_iff.2 ⟨ofFilters, ofExits⟩

end Strategy

-----------------------------------------------------------------------------------------
-- Limits of forms
-----------------------------------------------------------------------------------------

theorem isFinite_of_optionalNumber {text : String} {v : Binary64}
    (number : optionalNumber text = some v)
    : v.isFinite = true := by
  unfold optionalNumber at number
  split at number
  · split at number
    next finite =>
      obtain rfl := Option.some.inj number
      exact finite
    next => contradiction
  · contradiction

theorem Form.finite_strategy (form : Form) (now : Timestamp) : (form.strategy now).Finite := by
  intro part v set
  cases part <;> exact isFinite_of_optionalNumber set

-----------------------------------------------------------------------------------------
-- Limits of texts
-----------------------------------------------------------------------------------------

/-- Each number that a rule finds in the text is finite. -/
def Phrase.Moderate (text : String) : Prop :=
  ∀ rule ∈ rules, ∀ v, rule.scan (Text.trim text.toList) = some (.number v) → v.isFinite = true

theorem Phrase.finite_merge {text : String} (moderate : Moderate text) {base : Strategy}
    (finite : base.Finite)
    : (merge text base).Finite := by
  intro part v set
  obtain ⟨rule, member, own, _⟩ := exists_rule part
  rw [get_merge member own] at set
  cases found : rule.scan (Text.trim text.toList) with
  | none =>
      rw [found] at set
      exact finite part v set
  | some hit =>
      rw [found] at set
      cases hit with
      | words => exact finite part v set
      | number w =>
          obtain rfl : w = v := Option.some.inj set
          exact moderate rule member w found

-----------------------------------------------------------------------------------------
-- Drafts
-----------------------------------------------------------------------------------------

namespace Strategy

/-- The strategy comes from the empty draft, a form or a document, by names and by texts without
a number that is too great.
-/
inductive Drafted : Strategy → Prop
  | empty (now : Timestamp) : Drafted (.draft now)
  | form (form : Form) (now : Timestamp) : Drafted (form.strategy now)
  | document {now : Option Timestamp} {text : String} {s : Strategy} (read : parse now text = .ok s)
    : Drafted s
  | named {s : Strategy} (drafted : Drafted s) (name : String) : Drafted { s with name := name }
  | told {s : Strategy} (drafted : Drafted s) {text : String} (moderate : Phrase.Moderate text)
    : Drafted (Phrase.merge text s)

theorem Drafted.finite {s : Strategy} (drafted : s.Drafted) : s.Finite := by
  induction drafted with
  | empty now => exact finite_iff.2 ⟨⟨rfl, rfl, rfl⟩, rfl, rfl⟩
  | form form now => exact form.finite_strategy now
  | document read => exact finite_of_parse read
  | named _ name finite => exact fun part v set => finite part v set
  | told _ moderate finite => exact Phrase.finite_merge moderate finite

end Strategy

end Screener
