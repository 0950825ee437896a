import Screener.Phrase.Rule
import Screener.Proofs.Json.Printing
import Screener.Strategy.Document

/-!
Strategies are read back from their documents, as long as their limits have numbers and their
time of creation has a text that names it. The order of members has no part in it, nor have
members that a strategy does not have.
-/

namespace Screener

open Json (Layout Tree Value Written)
open Json.Value (Fits fits_limit)

-----------------------------------------------------------------------------------------
-- Names
-----------------------------------------------------------------------------------------

namespace Json

variable {α : Type}

/-- What a name stands for, where nothing and a blank stand for nothing. -/
def chooseOrBlank (names : List (String × α)) : Option String → Except Problem (Option α)
  | none | some "" => .ok none
  | some name => (choose names name).map some

theorem chooseOrBlank_some (names : List (String × α)) {name : String} (other : name ≠ "")
    : chooseOrBlank names (some name) = (choose names name).map some := by
  rw [chooseOrBlank]
  exact other

/-- What a tree names, where null and blanks name nothing. -/
def Tree.namedOrBlank? (names : List (String × α)) (t : Tree) : Option (Option α) :=
  (t.optional? Tree.string?).bind fun found =>
    (chooseOrBlank names (found.map Text.trimmed)).toOption

theorem follows_namedOrBlank (names : List (String × α))
    : (namedOrBlank names).Follows (Tree.namedOrBlank? names) := by
  refine (follows_optional follows_string).andThen
    (fun found => chooseOrBlank names (found.map Text.trimmed))
    (fun found x => toOption_eq_some.symm) ?_
  intro text
  unfold namedOrBlank
  refine bind_congr fun ⟨found, rest⟩ => ?_
  dsimp only
  generalize found.map Text.trimmed = tight
  split
  · rfl
  · rfl
  next name other =>
    rw [chooseOrBlank_some names other]
    cases choose names name <;> rfl

/-- What has a code is told by it, and nothing by a blank. -/
theorem means_namedOrBlank {names : List (String × α)} {code : α → String}
    (tight : ∀ a, Text.trimmed (code a) = code a) (some : ∀ a, code a ≠ "")
    (listed : ∀ a, choose names (code a) = .ok a) (x : Option α)
    : (Value.text ((x.map code).getD "")).Means (Tree.namedOrBlank? names) x := by
  intro t tells
  have other : t ≠ .null := by
    rintro rfl
    cases tells
  rw [Tree.namedOrBlank?, Tree.optional?_of_ne other, means_string _ t tells]
  cases x with
  | none => rfl
  | some a =>
      simp only [Option.map_some, Option.getD_some, Option.bind_some, tight]
      rw [chooseOrBlank_some names (some a), listed]
      rfl

theorem means_trigger (tech : Option Trigger)
    : (Value.text ((tech.map Trigger.code).getD "")).Means
        (Tree.namedOrBlank? Trigger.codes) tech := by
  refine means_namedOrBlank ?_ ?_ ?_ tech
  · intro t
    cases t <;> decide +kernel
  · intro t
    cases t <;> decide
  · intro t
    cases t <;> rfl

theorem means_pattern (pattern : Option ExitPattern)
    : (Value.text ((pattern.map ExitPattern.code).getD "")).Means
        (Tree.namedOrBlank? ExitPattern.codes) pattern := by
  refine means_namedOrBlank ?_ ?_ ?_ pattern
  · intro t
    cases t <;> decide +kernel
  · intro t
    cases t <;> decide
  · intro t
    cases t <;> rfl

theorem means_tags (tags : List Tag)
    : (Value.list (tags.map fun t => .text t.label)).Means
        (Tree.list? (Tree.named? Tag.codes)) tags := by
  refine means_list fun t _ => means_named ?_
  cases t <;> rfl

end Json

open Json

-----------------------------------------------------------------------------------------
-- Layouts
-----------------------------------------------------------------------------------------

namespace Filters

def layout :=
  Layout.field "peMax" (follows_optional follows_float) (some .none) <|
  Layout.field "mcapMaxYi" (follows_optional follows_float) (some .none) <|
  Layout.field "turnMinPct" (follows_optional follows_float) (some .none) <|
  Layout.field "tech" (follows_namedOrBlank Trigger.codes) (some .none) <|
  Layout.field "note" follows_string (some "") .done

/-- The filters that a tree says. -/
def ofTree? (t : Tree) : Option Filters :=
  (layout.decode t).map fun (peMax, mcapMaxYi, turnMinPct, tech, note, ()) =>
    ⟨peMax, mcapMaxYi, turnMinPct, tech, note⟩

theorem follows_reader : reader.Follows ofTree? :=
  (Layout.follows_record (by decide) "Filters").map _ fun _ => rfl

/-- The filters that are told by their document: those without a number are lost. -/
def readBack (f : Filters) : Filters :=
  { f with
    peMax := f.peMax.filter Binary64.isFinite
    mcapMaxYi := f.mcapMaxYi.filter Binary64.isFinite
    turnMinPct := f.turnMinPct.filter Binary64.isFinite }

theorem means_document (f : Filters) : f.document.Means ofTree? f.readBack := by
  intro t tells
  have stated : Layout.Stated layout _ (f.peMax.filter Binary64.isFinite,
      f.mcapMaxYi.filter Binary64.isFinite, f.turnMinPct.filter Binary64.isFinite, f.tech,
      f.note, ()) :=
    .field (means_finiteLimit f.peMax) <| .field (means_finiteLimit f.mcapMaxYi) <|
      .field (means_finiteLimit f.turnMinPct) <| .field (means_trigger f.tech) <|
      .field (means_string f.note) .done
  rw [ofTree?, stated.means (by decide) t tells]
  rfl

end Filters

namespace Exits

def layout :=
  Layout.field "takeProfitPct" (follows_optional follows_float) (some .none) <|
  Layout.field "stopLossPct" (follows_optional follows_float) (some .none) <|
  Layout.field "exitPattern" (follows_namedOrBlank ExitPattern.codes) (some .none) .done

/-- The exits that a tree says. -/
def ofTree? (t : Tree) : Option Exits :=
  (layout.decode t).map fun (takeProfitPct, stopLossPct, pattern, ()) =>
    ⟨takeProfitPct, stopLossPct, pattern⟩

theorem follows_reader : reader.Follows ofTree? :=
  (Layout.follows_record (by decide) "Exits").map _ fun _ => rfl

/-- The exits that are told by their document: those without a number are lost. -/
def readBack (e : Exits) : Exits :=
  { e with
    takeProfitPct := e.takeProfitPct.filter Binary64.isFinite
    stopLossPct := e.stopLossPct.filter Binary64.isFinite }

theorem means_document (e : Exits) : e.document.Means ofTree? e.readBack := by
  intro t tells
  have stated : Layout.Stated layout _ (e.takeProfitPct.filter Binary64.isFinite,
      e.stopLossPct.filter Binary64.isFinite, e.pattern, ()) :=
    .field (means_finiteLimit e.takeProfitPct) <| .field (means_finiteLimit e.stopLossPct) <|
      .field (means_pattern e.pattern) .done
  rw [ofTree?, stated.means (by decide) t tells]
  rfl

end Exits

-----------------------------------------------------------------------------------------
-- Strategies
-----------------------------------------------------------------------------------------

namespace Strategy

/-- The limits are absent or finite. -/
def Finite (s : Strategy) : Prop :=
  ∀ part v, Phrase.Limit.get s part = some v → v.isFinite = true

def layout (now : Option Timestamp) :=
  Layout.field "id" (follows_optional follows_string) (some .none) <|
  Layout.field "name" follows_string (some "") <|
  Layout.field "createdAt" follows_moment now <|
  Layout.field "filters" Filters.follows_reader (some .none) <|
  Layout.field "exits" Exits.follows_reader (some .none) <|
  Layout.field "tags" (follows_list (follows_named Tag.codes)) (some []) <|
  Layout.field "nl" follows_string (some "") .done

theorem names_layout (now : Option Timestamp) : (layout now).names.Nodup := by
  have names : (layout now).names
      = ["id", "name", "createdAt", "filters", "exits", "tags", "nl"] := rfl
  rw [names]
  decide

/-- The strategy that a tree says. -/
def ofTree? (now : Option Timestamp) (t : Tree) : Option Strategy :=
  ((layout now).decode t).map fun (id, name, createdAt, filters, exits, tags, wording, ()) =>
    ⟨id, name, createdAt, filters, exits, tags, wording⟩

theorem follows_reader (now : Option Timestamp) : (reader now).Follows (ofTree? now) :=
  (Layout.follows_record (names_layout now) "StrategyDsl").map _ fun _ => rfl

/-- A text is read as a strategy just if it is that of a tree that says the strategy. -/
theorem parse_eq_ok (now : Option Timestamp) {text : String} {s : Strategy}
    : parse now text = .ok s ↔ ∃ w : Written, w.text = text ∧ ofTree? now w.tree = some s :=
  (follows_reader now).document_eq_ok

/-- The strategy that is told by its document: its tags are told as they are, while limits
without a number are lost.
-/
def readBack (s : Strategy) : Strategy :=
  { s with
    createdAt := s.createdAt.readBack
    filters := s.filters.readBack
    exits := s.exits.readBack }

theorem Finite.filter_get {s : Strategy} (finite : s.Finite) (part : Phrase.Limit)
    : (Phrase.Limit.get s part).filter Binary64.isFinite = Phrase.Limit.get s part := by
  cases set : Phrase.Limit.get s part with
  | none => rfl
  | some v => simp [Option.filter, finite part v set]

theorem Finite.filters_readBack {s : Strategy} (finite : s.Finite)
    : s.filters.readBack = s.filters := by
  have peMax := finite.filter_get .peMax
  have mcapMaxYi := finite.filter_get .mcapMaxYi
  have turnMinPct := finite.filter_get .turnMinPct
  simp only [Phrase.Limit.get] at peMax mcapMaxYi turnMinPct
  rw [Filters.readBack, peMax, mcapMaxYi, turnMinPct]

theorem Finite.exits_readBack {s : Strategy} (finite : s.Finite)
    : s.exits.readBack = s.exits := by
  have takeProfitPct := finite.filter_get .takeProfitPct
  have stopLossPct := finite.filter_get .stopLossPct
  simp only [Phrase.Limit.get] at takeProfitPct stopLossPct
  rw [Exits.readBack, takeProfitPct, stopLossPct]

/-- A strategy whose limits have numbers is told by its document. -/
theorem Finite.readBack_eq {s : Strategy} (finite : s.Finite) (regular : s.createdAt.Regular)
    : s.readBack = s := by
  rw [readBack, regular.readBack_eq, finite.filters_readBack, finite.exits_readBack]

theorem means_document (s : Strategy) (now : Option Timestamp)
    : s.document.Means (ofTree? now) s.readBack := by
  intro t tells
  have id : (Value.ofOption Value.text s.id).Means (Tree.optional? Tree.string?) s.id :=
    means_optional (fun name _ => means_string name) fun name _ => Value.noConfusion
  have stated : Layout.Stated (layout now) _
      (s.id, s.name, s.createdAt.readBack, s.filters.readBack, s.exits.readBack, s.tags,
        s.wording, ()) :=
    .field id <| .field (means_string s.name) <| .field (means_moment s.createdAt) <|
      .field s.filters.means_document <| .field s.exits.means_document <|
      .field (means_tags s.tags) <| .field (means_string s.wording) .done
  rw [ofTree?, stated.means (names_layout now) t tells]
  rfl

/-- A strategy has a document whatever its limits are. -/
theorem fits_document (depth : Nat) (s : Strategy) : Fits (depth + 4) s.document := by
  have id : Fits (depth + 3) (.ofOption .text s.id) := by
    cases s.id with
    | none => exact .null
    | some name => exact .text name
  have filters : Fits (depth + 3) s.filters.document := by
    refine .object ?_
    simp only [List.forall_mem_cons]
    exact ⟨fits_limit _ _, fits_limit _ _, fits_limit _ _, .text _, .text _, List.forall_mem_nil _⟩
  have exits : Fits (depth + 3) s.exits.document := by
    refine .object ?_
    simp only [List.forall_mem_cons]
    exact ⟨fits_limit _ _, fits_limit _ _, .text _, List.forall_mem_nil _⟩
  have tags : Fits (depth + 3) (.list (s.tags.map fun t => .text t.label)) :=
    .list (List.forall_mem_map.2 fun _ _ => .text _)
  refine .object ?_
  simp only [List.forall_mem_cons]
  exact ⟨id, .text _, .text _, filters, exits, tags, .text _, List.forall_mem_nil _⟩

variable {s : Strategy}

/-- A strategy is read from each text that tells its document. -/
theorem parse_tells (finite : s.Finite) (regular : s.createdAt.Regular) (now : Option Timestamp)
    {w : Written} (tells : w.tree.Tells s.document)
    : parse now w.text = .ok s := by
  have means := s.means_document now w.tree tells
  rw [finite.readBack_eq regular] at means
  exact (parse_eq_ok now).2 ⟨w, rfl, means⟩

/-- Whatever its limits, a document is read as what it tells. -/
theorem parse_document_eq (s : Strategy) (now : Option Timestamp)
    : parse now s.document.render = .ok s.readBack := by
  obtain ⟨w, text, tells⟩ := exists_written (s.fits_document 0)
  rw [← text]
  exact (parse_eq_ok now).2 ⟨w, rfl, s.means_document now w.tree tells⟩

/-- A strategy is read back from its document. -/
theorem parse_document (finite : s.Finite) (regular : s.createdAt.Regular)
    (now : Option Timestamp)
    : parse now s.document.render = .ok s := by
  rw [parse_document_eq, finite.readBack_eq regular]

/-- What is written for a strategy is read as it: from its document, and from every text that
tells it, whatever the order of the members of the strategy, its filters and its exits, and
whatever well-formed values stand under names that these do not have.
-/
theorem decode_encode (finite : s.Finite) (regular : s.createdAt.Regular)
    (now : Option Timestamp)
    : parse now s.document.render = .ok s
      ∧ ∀ w : Written, w.tree.Tells s.document → parse now w.text = .ok s :=
  ⟨parse_document finite regular now, fun _ => parse_tells finite regular now⟩

-- A text with the members in another order, behind one that no strategy has: a list of a number
-- that no float holds and of half a surrogate pair.
namespace Reordered

def now : Timestamp := ⟨⟨2023, 11, 30, by decide⟩, 51133, 1002000, by decide, by decide⟩

def strategy : Strategy :=
  { Strategy.draft now with
    name := "低\n估"
    filters := ⟨some (-0.0), none, none, some .breakout, ""⟩
    tags := [.valuation] }

def huge : NumberText where
  numeral := ⟨false, ['1'], none, some 999⟩
  proper := ⟨.inr ⟨'1', [], rfl, by decide⟩, List.all_eq_true.1 rfl, nofun⟩
  power := ['E', '9', '9', '9']
  powers := by
    have plain : ([], false) ∈ powerSigns := by simp [powerSigns]
    have digits : ∀ c ∈ ['9', '9', '9'], Decimal.isDigit c = true := List.all_eq_true.1 rfl
    have powers : Powers _ ('E' :: ([] ++ ['9', '9', '9'])) :=
      .some (.inr rfl) plain (List.cons_ne_nil _ _) digits
    exact powers

/-- The member that no strategy has. -/
def key : Key where
  name := [.plain 'l' (by decide), .plain 'a' (by decide), .plain 't' (by decide),
    .plain 'e' (by decide), .plain 'r' (by decide)]
  behind := .none
  lead := .space

def value : Tree :=
  .list (.cons .none .none (.number huge)
    (.cons .none .space (.text [.unit 'd' '8' '0' '0' 0xD800 rfl]) (.nil .none)))

theorem finite : strategy.Finite := by
  intro part
  refine (Option.all_eq_true _ _).1 ?_
  cases part <;> decide +kernel

/-- The members of a strategy from the last to the first, behind the other one. -/
theorem exists_reordered (s : Strategy)
    : ∃ w : Written, w.tree.Tells s.document
        ∧ "\x7b\"later\": [1E999, \"\\ud800\"]".toList <+: w.text.toList := by
  obtain ⟨stated, same, names⟩
      : ∃ stated, s.document = .object stated
          ∧ stated.map Prod.fst = ["id", "name", "createdAt", "filters", "exits", "tags", "nl"] :=
    ⟨_, rfl, rfl⟩
  have fits := s.fits_document 0
  rw [same] at fits ⊢
  have backwards : Fits 4 (.object stated.reverse) := by
    cases fits with
    | object all => exact .object fun entry member => all entry (List.mem_reverse.1 member)
  obtain ⟨t, _, tells⟩ := hasTree_of_fits backwards
  cases t with
  | object members =>
      have fresh : String.ofList "later".toList ∉ stated.map Prod.fst := by
        rw [names]
        decide
      have spelled : Piece.spelled? key.name = some "later".toList := by decide
      have told := (tells.perm stated.reverse_perm).cons .none .none spelled fresh value
      refine ⟨⟨.none, _, .none⟩, told, ?_⟩
      simp only [Written.text, String.toList_ofList]
      exact ⟨_, rfl⟩
  | null | boolean _ | number _ | text _ | list _ => cases tells

/-- Witness: the strategy is read from its document, and from the other text. -/
theorem decode_encode_reordered
    : strategy.Finite ∧ strategy.createdAt.Regular
      ∧ parse none strategy.document.render = .ok strategy
      ∧ ∃ w : Written, w.tree.Tells strategy.document
        ∧ "\x7b\"later\": [1E999, \"\\ud800\"]".toList <+: w.text.toList
        ∧ parse none w.text = .ok strategy := by
  have regular : strategy.createdAt.Regular := ⟨by decide, by decide, by decide⟩
  obtain ⟨own, others⟩ := decode_encode finite regular none
  obtain ⟨w, told, starts⟩ := exists_reordered strategy
  exact ⟨finite, regular, own, w, told, starts, others w told⟩

end Reordered

end Strategy

end Screener
