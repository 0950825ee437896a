import Screener.Proofs.Phrase.Conversation
import Screener.Proofs.Store.Saving

/-!
Saving from text. What a text says is the same whatever the draft is called, so a strategy that is
saved from a text has the rule of the text, and its name is the one that is given or the one that
the rule suggests. It is refused where there is neither: without a name, a blank text suggests
none.
-/

namespace Screener

open Strategy (draft)
open StrategyStore (added save)

-----------------------------------------------------------------------------------------
-- Drafts
-----------------------------------------------------------------------------------------

/-- What a text makes of a rule follows from the rule. -/
theorem Phrase.sameRule_merge (text : String) {base base' : Strategy} (same : base.SameRule base')
    : (merge text base).SameRule (merge text base') := by
  apply sameRule_of_parts
  · intro part
    obtain ⟨rule, member, own, _⟩ := exists_rule part
    rw [get_merge member own, get_merge member own,
      Limit.get_congr same.filters same.exits part]
  · rw [tech_merge, tech_merge, same.filters]
  · rw [pattern_merge, pattern_merge, same.exits]
  · rw [(merge_frame text base).2.2, (merge_frame text base').2.2, same.filters]

/-- Nothing names a strategy: the text is blank, and a name is blank or not given. -/
def Nameless (text : String) (name : Option String) : Prop :=
  Text.trim text.toList = [] ∧ ∀ given ∈ name, Text.trim given.toList = []

instance (text : String) (name : Option String) : Decidable (Nameless text name) := by
  unfold Nameless; infer_instance

theorem Text.trimmed_eq_empty_iff {text : String} : trimmed text = "" ↔ trim text.toList = [] := by
  rw [← String.toList_eq_nil_iff, trimmed, String.toList_ofList]

namespace Phrase

variable (now : Timestamp) (text : String) (name : Option String)

theorem sameRule_draftOf : (draftOf now text name).SameRule (merge text (draft now)) := by
  apply sameRule_merge
  exact ⟨rfl, rfl⟩

theorem wording_draftOf : (draftOf now text name).wording = Text.trimmed text := by
  by_cases blank : Text.trim text.toList = []
  · rw [draftOf, merge_of_blank _ blank, Text.trimmed, blank]
    rfl
  · exact wording_merge _ blank

variable {now text name}

/-- A name that is given and not blank is kept. -/
theorem name_draftOf_of_given {given : String} (member : given ∈ name)
    (some : Text.trim given.toList ≠ [])
    : (draftOf now text name).name = Text.trimmed given := by
  obtain rfl := member
  apply name_merge_of_named
  exact Text.trimmed_eq_empty_iff.not.2 some

theorem getD_trimmed_of_blank (none : ∀ given ∈ name, Text.trim given.toList = [])
    : (name.map Text.trimmed).getD "" = "" := by
  cases name with
  | none => rfl
  | some given => exact Text.trimmed_eq_empty_iff.2 (none given rfl)

/-- Without a name, a text that is not blank suggests one. -/
theorem name_draftOf_of_blank (none : ∀ given ∈ name, Text.trim given.toList = [])
    (spoken : Text.trim text.toList ≠ [])
    : (draftOf now text name).name = (merge text (draft now)).suggestedName := by
  rw [← (sameRule_draftOf now text name).suggestedName]
  exact (name_merge _ spoken).trans (if_pos (getD_trimmed_of_blank none))

theorem name_draftOf_of_nameless (nameless : Nameless text name)
    : (draftOf now text name).name = "" :=
  (name_merge_of_blank _ nameless.1).trans (getD_trimmed_of_blank nameless.2)

/-- A draft from a text has no name just if nothing names it. -/
theorem name_draftOf_eq_empty_iff
    : (draftOf now text name).name = "" ↔ Nameless text name := by
  refine ⟨fun empty => ?_, name_draftOf_of_nameless⟩
  have none : ∀ given ∈ name, Text.trim given.toList = [] := by
    intro given member
    by_contra some
    exact Text.trimmed_eq_empty_iff.not.2 some
      ((name_draftOf_of_given member some).symm.trans empty)
  refine ⟨?_, none⟩
  by_contra spoken
  exact Strategy.suggestedName_ne_empty _ ((name_draftOf_of_blank none spoken).symm.trans empty)

end Phrase

-----------------------------------------------------------------------------------------
-- Creation
-----------------------------------------------------------------------------------------

namespace MemoryStore

variable (store : MemoryStore) {s : Strategy} {id : String} {now : Timestamp}

/-- The store with one more strategy. -/
def push (s : Strategy) : MemoryStore :=
  { store with strategies := store.strategies ++ [s] }

theorem create_of_stored {d : Strategy} (stored : d.stored id now = .ok s)
    : store.create id now d = .ok (s, store.push s) := by
  rw [create, stored]
  rfl

theorem create_of_unnamed {d : Strategy} (unnamed : Text.trimmed d.name = "")
    : store.create id now d = .error .unnamed := by
  have refused : d.stored id now = .error .unnamed := if_pos unnamed
  rw [create, refused]
  rfl

theorem list_push (s : Strategy) : (store.push s).list = s :: store.list :=
  List.reverse_concat ..

/-- An identifier that no strategy has yet finds the strategy that comes with it. -/
theorem get?_push (own : s.id = some id)
    (fresh : ∀ earlier ∈ store.strategies, earlier.id ≠ some id)
    : (store.push s).get? id = some s := by
  have none : store.strategies.find? (fun earlier => earlier.id == some id) = none := by
    apply List.find?_eq_none.2
    intro earlier member same
    exact fresh earlier member (beq_iff_eq.1 same)
  rw [get?, push, List.find?_append, none, Option.none_or]
  exact List.find?_cons_of_pos (beq_iff_eq.2 own)

theorem get?_push_of_ne (own : s.id = some id) {other : String} (different : other ≠ id)
    : (store.push s).get? other = store.get? other := by
  have apart : ¬(s.id == some other) = true := by
    rw [own, beq_iff_eq]
    exact fun same => different (Option.some.inj same).symm
  have none : [s].find? (fun s => s.id == some other) = none := List.find?_cons_of_neg apart
  rw [get?, push, List.find?_append, none]
  exact Option.or_none

end MemoryStore

-----------------------------------------------------------------------------------------
-- Saving
-----------------------------------------------------------------------------------------

/-- A strategy saved from a text under an identifier, and the stores before and after. -/
structure SavedFrom (text : String) (name : Option String) (id : String) (now : Timestamp)
    (before : MemoryStore) (s : Strategy) (after : MemoryStore) : Prop where
  rule : s.SameRule (Phrase.merge text (draft now))
  wording : s.wording = Text.trimmed text
  given : ∀ given ∈ name, Text.trim given.toList ≠ [] → s.name = Text.trimmed given
  suggested
    : (∀ given ∈ name, Text.trim given.toList = []) →
        s.name = (Phrase.merge text (draft now)).suggestedName
  tags : s.tags = s.inferredTags
  identified : s.id = some id
  createdAt : s.createdAt = now.toMicros
  strategies : after.strategies = before.strategies ++ [s]
  runs : after.allRuns = before.allRuns
  listed : after.list = s :: before.list
  /-- An identifier that no strategy has yet finds the strategy. -/
  found : (∀ earlier ∈ before.strategies, earlier.id ≠ some id) → after.get? id = some s
  /-- Every other identifier finds what it has found before. -/
  others : ∀ other, other ≠ id → after.get? other = before.get? other

/-- Saving from a text fails just if nothing names the strategy, and leaves the store then. -/
structure SavesText (store : MemoryStore) (id : String) (now : Timestamp) (text : String)
    (name : Option String) : Prop where
  refused : save store id now text name = .error .unnamed ↔ Nameless text name
  unchanged
    : Nameless text name →
        added store .created (save store id now text name) = (.refused .unnamed, store)
  saved
    : ¬Nameless text name →
        ∃ s after, save store id now text name = .ok (s, after)
          ∧ SavedFrom text name id now store s after

theorem savedFrom_of_stored {store : MemoryStore} {id : String} {now : Timestamp} {text : String}
    {name : Option String} (named : ¬Nameless text name) {s : Strategy}
    (stored : (Phrase.draftOf now text name).stored id now = .ok s)
    : SavedFrom text name id now store s (store.push s) := by
  have trimmed := (Strategy.Handed.told now text name).trimmed_name
  have rule := Phrase.sameRule_draftOf now text name
  have wording := Phrase.wording_draftOf now text name
  have given : ∀ given ∈ name, Text.trim given.toList ≠ [] →
      (Phrase.draftOf now text name).name = Text.trimmed given :=
    fun _ => Phrase.name_draftOf_of_given
  have suggested : (∀ given ∈ name, Text.trim given.toList = []) →
      (Phrase.draftOf now text name).name = (Phrase.merge text (draft now)).suggestedName :=
    fun none => Phrase.name_draftOf_of_blank none fun blank => named ⟨blank, none⟩
  -- What follows is about any draft with these properties.
  generalize Phrase.draftOf now text name = d at stored trimmed rule wording given suggested
  obtain ⟨_, rfl⟩ := Strategy.stored_eq_ok stored
  constructor
  case rule => exact ⟨rule.filters, rule.exits⟩
  case wording => exact wording
  case given => exact fun name member some => trimmed.trans (given name member some)
  case suggested => exact fun none => trimmed.trans (suggested none)
  case tags => rfl
  case identified => rfl
  case createdAt => rfl
  case strategies => rfl
  case runs => rfl
  case listed => exact store.list_push _
  case found => exact store.get?_push rfl
  case others => exact fun other => store.get?_push_of_ne rfl

theorem save_eq (store : MemoryStore) (id : String) (now : Timestamp) (text : String)
    (name : Option String)
    : save store id now text name = store.create id now (Phrase.draftOf now text name) := rfl

/-- Whatever a store holds, a text is saved in it under a name that is given or suggested, and it
is refused just if there is neither.
-/
theorem save_law (store : MemoryStore) (id : String) (now : Timestamp) (text : String)
    (name : Option String)
    : SavesText store id now text name := by
  have trimmed := (Strategy.Handed.told now text name).trimmed_name
  have unnamed_iff : (Phrase.draftOf now text name).name = "" ↔ Nameless text name :=
    Phrase.name_draftOf_eq_empty_iff
  by_cases nameless : Nameless text name
  · have unnamed := trimmed.trans (unnamed_iff.2 nameless)
    have refused : save store id now text name = .error .unnamed := by
      rw [save_eq, store.create_of_unnamed unnamed]
    constructor
    case refused => exact iff_of_true refused nameless
    case unchanged =>
      intro _
      rw [refused]
      rfl
    case saved => exact fun named => absurd nameless named
  · have named : Text.trimmed (Phrase.draftOf now text name).name ≠ "" :=
      trimmed.symm ▸ mt unnamed_iff.1 nameless
    obtain ⟨s, stored⟩ := Strategy.exists_stored named id now
    have saved : save store id now text name = .ok (s, store.push s) := by
      rw [save_eq, store.create_of_stored stored]
    constructor
    case refused =>
      rw [saved]
      exact iff_of_false nofun nameless
    case unchanged => exact fun none => absurd none nameless
    case saved => exact fun named => ⟨s, _, saved, savedFrom_of_stored named stored⟩

namespace SavedText

def now : Timestamp := ⟨⟨2025, 8, 21, by decide⟩, 51403, 431000, by decide, by decide⟩

/-- A store with one strategy. -/
def store : MemoryStore :=
  ⟨[{ draft now with id := some "stg_1", name := "稳健" }], []⟩

/-- Witness: a blank text is refused without a name and saved under one, a text that is not blank is
saved without one, and a new identifier finds it.
-/
theorem save_law_sample
    : (∀ earlier ∈ store.strategies, earlier.id ≠ some "stg_2")
      ∧ Nameless "　" (some " ") ∧ ¬Nameless "　" (some " 价值 ") ∧ ¬Nameless "PE<15" none
      ∧ SavesText store "stg_2" now "　" (some " ")
      ∧ SavesText store "stg_2" now "　" (some " 价值 ")
      ∧ SavesText store "stg_2" now "PE<15" none := by
  refine ⟨by decide, by decide, by decide, by decide, ?_, ?_, ?_⟩
  all_goals apply save_law

end SavedText

end Screener
