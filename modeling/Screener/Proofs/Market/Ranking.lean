import Screener.Market.Commentary
import Screener.Proofs.Market.Invented
import Screener.Proofs.Sorting
import Screener.Proofs.Timeline.Run

/-!
Rankings of sectors and their leaders. Where all keys are numbers, sectors are ranked by the places
of their keys, which are whole; so rankings are sorted, ties keep their order, and the head of a
ranking is the first sector with the greatest key. Headlines and notes name this one.
-/

namespace Screener

open Binary64 (le_iff lt_iff isNaN_of_isFinite)

namespace Market

-----------------------------------------------------------------------------------------
-- Keys
-----------------------------------------------------------------------------------------

/-- No sector has a key that is not a number. -/
def Snapshot.Numeric (m : Snapshot) (ranking : Ranking) : Prop :=
  ∀ s ∈ m.sectors, (ranking.key s).isNaN = false

/-- What is read from a feed or invented has finite keys. -/
theorem Snapshot.Finite.numeric {m : Snapshot} (finite : m.Finite) (ranking : Ranking)
    : m.Numeric ranking := by
  intro s member
  have keys := finite.sectors s member
  cases ranking with
  | gain => exact isNaN_of_isFinite keys.1
  | money => exact isNaN_of_isFinite keys.2

/-- The sectors compare by the places of their keys, highest first. -/
def Ranking.above (ranking : Ranking) (a b : Sector) : Bool :=
  decide ((ranking.key b).place ≤ (ranking.key a).place)

theorem Ranking.above_trans (ranking : Ranking) (a b c : Sector)
    (first : ranking.above a b = true) (second : ranking.above b c = true)
    : ranking.above a c = true := by
  simp only [above, decide_eq_true_eq] at first second ⊢
  exact Int.le_trans second first

theorem Ranking.above_total (ranking : Ranking) (a b : Sector)
    : (ranking.above a b || ranking.above b a) = true := by
  simp only [above, Bool.or_eq_true, decide_eq_true_eq]
  exact Int.le_total _ _

/-- The sector's key is as high as a value; both zeros are equally high. -/
def Ranking.ties (ranking : Ranking) (v : Binary64) (s : Sector) : Bool :=
  ranking.key s ≤ v && v ≤ ranking.key s

namespace Snapshot

variable {m : Snapshot} {ranking : Ranking}

/-- Sectors with numbers for keys are above one another if the keys say so. -/
theorem above_iff (numeric : m.Numeric ranking) {a b : Sector} (ha : a ∈ m.sectors)
    (hb : b ∈ m.sectors)
    : ranking.above a b = true ↔ ranking.key b ≤ ranking.key a := by
  rw [Ranking.above, decide_eq_true_eq, le_iff]
  exact ⟨fun places => ⟨numeric b hb, numeric a ha, places⟩, fun le => le.2.2⟩

theorem ranked_eq (numeric : m.Numeric ranking)
    : m.ranked ranking = m.sectors.mergeSort ranking.above := by
  refine mergeSort_congr fun a ha b hb => ?_
  have less : (ranking.key a).lt (ranking.key b) = true
      ↔ (ranking.key a).place < (ranking.key b).place := by
    change ranking.key a < ranking.key b ↔ _
    rw [lt_iff]
    exact ⟨fun less => less.2.2, fun places => ⟨numeric a ha, numeric b hb, places⟩⟩
  rw [Bool.eq_iff_iff, Bool.not_eq_true', Bool.eq_false_iff, ne_eq, less, Ranking.above,
    decide_eq_true_eq, Int.not_lt]

-----------------------------------------------------------------------------------------
-- Rankings
-----------------------------------------------------------------------------------------

theorem perm_ranked (m : Snapshot) (ranking : Ranking) : (m.ranked ranking).Perm m.sectors :=
  List.mergeSort_perm _ _

theorem pairwise_ranked (numeric : m.Numeric ranking)
    : (m.ranked ranking).Pairwise fun a b => ranking.key b ≤ ranking.key a := by
  have sorted := List.pairwise_mergeSort ranking.above_trans ranking.above_total m.sectors
  rw [← ranked_eq numeric] at sorted
  have member {s : Sector} := (perm_ranked m ranking).mem_iff (a := s)
  exact sorted.imp_of_mem fun ha hb above =>
    (above_iff numeric (member.1 ha) (member.1 hb)).1 above

theorem filter_ranked (numeric : m.Numeric ranking) (v : Binary64)
    : (m.ranked ranking).filter (ranking.ties v) = m.sectors.filter (ranking.ties v) := by
  rw [ranked_eq numeric]
  refine filter_mergeSort ranking.above_trans ranking.above_total fun a ha b hb tied tied' => ?_
  simp only [Ranking.ties, Bool.and_eq_true, decide_eq_true_eq] at tied tied'
  exact (above_iff numeric ha hb).2 (Binary64.le_trans tied'.1 tied.2)

/-- A ranking is not changed by ranking it again. -/
theorem ranked_ranked (numeric : m.Numeric ranking)
    : { m with sectors := m.ranked ranking }.ranked ranking = m.ranked ranking := by
  refine List.mergeSort_of_pairwise ((pairwise_ranked numeric).imp fun {a b} le => ?_)
  rw [Bool.not_eq_true', Bool.eq_false_iff]
  exact Binary64.not_lt_of_le le

-----------------------------------------------------------------------------------------
-- Leaders
-----------------------------------------------------------------------------------------

/-- The first sector whose key is at least that of every sector. -/
def highest? (m : Snapshot) (ranking : Ranking) : Option Sector :=
  m.sectors.find? fun s => m.sectors.all fun t => ranking.key t ≤ ranking.key s

/-- The head of a ranking is the first sector with the greatest key. -/
theorem leader?_eq_highest? (numeric : m.Numeric ranking)
    : m.leader? ranking = m.highest? ranking := by
  rw [leader?, ranked_eq numeric, head?_mergeSort ranking.above_trans ranking.above_total,
    highest?, ← List.head?_filter, ← List.head?_filter]
  refine congrArg List.head? (List.filter_congr fun s hs => ?_)
  rw [Bool.eq_iff_iff, List.all_eq_true, List.all_eq_true]
  refine forall₂_congr fun t ht => ?_
  rw [decide_eq_true_eq, above_iff numeric hs ht]

theorem leader?_eq_none (m : Snapshot) (ranking : Ranking)
    : m.leader? ranking = none ↔ m.sectors = [] := by
  rw [leader?, List.head?_eq_none_iff]
  have same := perm_ranked m ranking
  exact ⟨fun none => (none ▸ same).nil_eq.symm, fun none => (none ▸ same).eq_nil⟩

/-- A ranking has the sectors of the snapshot, highest first, and leaves those that tie in the order
of the snapshot. It is settled, and led by the first sector that is as high as any.
-/
structure Ranks (m : Snapshot) (ranking : Ranking) : Prop where
  perm : (m.ranked ranking).Perm m.sectors
  sorted : (m.ranked ranking).Pairwise fun a b => ranking.key b ≤ ranking.key a
  stable : ∀ v, (m.ranked ranking).filter (ranking.ties v) = m.sectors.filter (ranking.ties v)
  settled : { m with sectors := m.ranked ranking }.ranked ranking = m.ranked ranking
  leaderless : m.leader? ranking = none ↔ m.sectors = []
  led : m.leader? ranking = m.highest? ranking

theorem ranks (numeric : m.Numeric ranking) : m.Ranks ranking where
  perm := perm_ranked m ranking
  sorted := pairwise_ranked numeric
  stable := filter_ranked numeric
  settled := ranked_ranked numeric
  leaderless := leader?_eq_none m ranking
  led := leader?_eq_highest? numeric

-----------------------------------------------------------------------------------------
-- What names a leader
-----------------------------------------------------------------------------------------

/-- A headline names the leader of each ranking; the last one names none. -/
theorem titles_pulse (m : Snapshot)
    : m.pulse.map Headline.title
      = ((m.leader? .gain).map fun best => "主线优先级：" ++ best.name).toList
        ++ ((m.leader? .money).map fun best => "资金偏好：" ++ best.name).toList
        ++ ["仓位建议：" ++ m.mood.shortLabel] := by
  simp only [pulse, List.map_append, ← Option.toList_map, Option.map_map, List.map_cons,
    List.map_nil]
  rfl

open Timeline in
/-- A note names the leader by gain, ahead of what it says outside of a market. -/
theorem explanation_note {m : Snapshot} {strategy : Strategy} {s : Security} {days seed : UInt32}
    {i : Nat} {event : Event}
    (here : (simulate strategy s days seed (some m))[i]? = some event)
    (note : event.kind = .note)
    : ∃ event', (simulate strategy s days seed none)[i]? = some event' ∧ event'.kind = .note
      ∧ event.explanation
        = match m.leader? .gain with
          | some leader =>
            "主线参考：" ++ leader.name ++ "（示例），关注板块共振。" ++ " " ++ event'.explanation
          | none => event'.explanation := by
  rw [simulate_eq_map, List.getElem?_map, Option.map_eq_some_iff] at here
  obtain ⟨word, at_, rfl⟩ := here
  rw [kind_eventAt] at note
  refine ⟨eventAt strategy s (window days) (leaderOf none) word, ?_, ?_, ?_⟩
  · rw [simulate_eq_map, List.getElem?_map, at_, Option.map_some]
  · rw [kind_eventAt, note]
  · rw [explanation_eventAt, explanation_eventAt, note]
    have silent : leaderOf none = none := rfl
    cases led : m.leader? .gain with
    | none =>
        have hint : leaderOf (some m) = none := by simp [leaderOf, led]
        rw [hint, silent]
    | some leader =>
        have hint : leaderOf (some m) = some leader.name := by simp [leaderOf, led]
        rw [hint, silent, explanationAt_note, sectorHint]

open Timeline in
/-- Snapshots that are read or invented have numbers for keys. With those, every ranking is in
order, the headlines name the highest sector by gain and by money, and each note of a simulation
starts with the highest sector by gain, ahead of what it says outside of the market.
-/
theorem ranking_law (m : Snapshot)
    : (∀ ranking, m.Numeric ranking → m.Ranks ranking)
      ∧ (m.Numeric .gain → m.Numeric .money →
        m.pulse.map Headline.title
          = ((m.highest? .gain).map fun best => "主线优先级：" ++ best.name).toList
            ++ ((m.highest? .money).map fun best => "资金偏好：" ++ best.name).toList
            ++ ["仓位建议：" ++ m.mood.shortLabel])
      ∧ (m.Numeric .gain →
        ∀ (strategy : Strategy) (s : Security) (days seed : UInt32) (i : Nat) (event : Event),
        (simulate strategy s days seed (some m))[i]? = some event → event.kind = .note →
        ∃ event', (simulate strategy s days seed none)[i]? = some event' ∧ event'.kind = .note
          ∧ event.explanation
            = match m.highest? .gain with
              | some best =>
                "主线参考：" ++ best.name ++ "（示例），关注板块共振。" ++ " " ++ event'.explanation
              | none => event'.explanation)
      ∧ ((∃ text, parse text = .ok m) ∨ (∃ seed, invented seed = m) →
        ∀ ranking, m.Numeric ranking) := by
  refine ⟨fun ranking => ranks, fun gains flows => ?_, fun gains => ?_, ?_⟩
  · rw [titles_pulse, leader?_eq_highest? gains, leader?_eq_highest? flows]
  · intro strategy s days seed i event here note
    rw [← leader?_eq_highest? gains]
    exact explanation_note here note
  · rintro (⟨text, read⟩ | ⟨seed, rfl⟩)
    · exact (finite_of_parse read).numeric
    · exact (finite_invented seed).numeric

/-- A market whose sectors tie by twos: at both zeros by gain, and beyond all bounds by money. -/
def tiedMarket : Snapshot :=
  ⟨[], 9000, none, none, none, 0, 0, 0, 0, 0,
    [⟨"银行", 0, .infinite false⟩, ⟨"煤炭", -0, -4.5⟩, ⟨"券商", -1.5, .infinite false⟩,
      ⟨"白酒", -1.5, -4.5⟩], 0, 60⟩

theorem numeric_tiedMarket (ranking : Ranking) : tiedMarket.Numeric ranking := by
  cases ranking <;> unfold Numeric <;> decide +kernel

open Timeline in
/-- The first event that is drawn for the security is a note. -/
theorem exists_note
    : ∃ (i : Nat) (event : Event),
      (simulate openDraft spirits 60 0 (some tiedMarket))[i]? = some event
      ∧ event.kind = .note := by
  let word := Draws.step (seedWord openDraft spirits 60 0)
  have short : countOf (Draws.value word) = 6 := by decide +kernel
  have drawn : word ∈ shownStarts 60 (seedWord openDraft spirits 60 0) := by
    have all : 6 ≤ shown := by decide
    rw [shownStarts, short, List.take_of_length_le (by simpa using all), List.mem_mergeSort, starts]
    exact List.mem_cons_self
  obtain ⟨i, here⟩ := List.getElem?_of_mem drawn
  refine ⟨i, eventAt openDraft spirits 60 (leaderOf (some tiedMarket)) word, ?_, ?_⟩
  · rw [simulate_eq_map, List.getElem?_map]
    exact congrArg (Option.map _) here
  · rw [kind_eventAt]
    decide +kernel

open Timeline in
/-- Witness: the leaders of the tied market, which its headlines and a note name; and the keys of
an invented market.
-/
theorem ranking_law_tied
    : (∀ ranking, tiedMarket.Numeric ranking ∧ (invented 7).Numeric ranking)
      ∧ tiedMarket.leader? .gain = some ⟨"银行", 0, .infinite false⟩
      ∧ (tiedMarket.ranked .money).filter (Ranking.ties .money (-4.5))
        = [⟨"煤炭", -0, -4.5⟩, ⟨"白酒", -1.5, -4.5⟩]
      ∧ tiedMarket.pulse.map Headline.title
        = ["主线优先级：银行", "资金偏好：银行", "仓位建议：" ++ tiedMarket.mood.shortLabel]
      ∧ ∃ event ∈ simulate openDraft spirits 60 0 (some tiedMarket),
        ∃ event' ∈ simulate openDraft spirits 60 0 none, event.explanation
          = "主线参考：" ++ "银行" ++ "（示例），关注板块共振。" ++ " " ++ event'.explanation := by
  obtain ⟨ranks, titles, notes, -⟩ := ranking_law tiedMarket
  obtain ⟨-, -, -, keys⟩ := ranking_law (invented 7)
  have gain : tiedMarket.highest? .gain = some ⟨"银行", 0, .infinite false⟩ := by
    decide +kernel
  have money : tiedMarket.highest? .money = some ⟨"银行", 0, .infinite false⟩ := by
    decide +kernel
  refine ⟨fun ranking => ⟨numeric_tiedMarket ranking, keys (.inr ⟨7, rfl⟩) ranking⟩,
    ?_, ?_, ?_, ?_⟩
  · rw [(ranks .gain (numeric_tiedMarket .gain)).led, gain]
  · rw [(ranks .money (numeric_tiedMarket .money)).stable]
    decide +kernel
  · rw [titles (numeric_tiedMarket .gain) (numeric_tiedMarket .money), gain, money]
    rfl
  · obtain ⟨i, event, here, note⟩ := exists_note
    obtain ⟨event', here', -, told⟩ :=
      notes (numeric_tiedMarket .gain) openDraft spirits 60 0 i event here note
    rw [gain] at told
    exact ⟨event, List.mem_of_getElem? here, event', List.mem_of_getElem? here', told⟩

end Snapshot

end Market

end Screener
