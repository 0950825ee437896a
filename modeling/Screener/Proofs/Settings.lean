import Screener.Proofs.Decimal.Spelling
import Screener.Proofs.Outcome
import Screener.Proofs.Timeline.Shape
import Screener.Settings

/-!
What a configuration means. Each key is accepted or not on its own: the settings exist just if
every key is accepted, and otherwise the first key that is not is reported. What is configured
is what holds, but for a size of the pool that 32 bits do not hold: it is accepted, and the
standard size holds.
-/

namespace Screener

open Decimal (SpellsInteger FitsInteger integer64?_eq_some_iff)

/-- The keys in the order in which they are checked. -/
def SettingKey.inOrder : List SettingKey :=
  [.seed, .feedTimeout, .days, .poolSize, .feedPath, .csvPath, .databasePath]

theorem SettingKey.mem_inOrder (key : SettingKey) : key ∈ inOrder := by
  cases key <;> decide

namespace Settings

-----------------------------------------------------------------------------------------
-- Keys
-----------------------------------------------------------------------------------------

/-- Nothing is configured for the key, or blanks only. -/
def Silent (lookup : Lookup) (key : SettingKey) : Prop :=
  ∀ text, lookup key = some text → Text.trim text.toList = []

/-- The text that is configured for the key spells the whole number, blanks around it aside, and
64 bits hold it.
-/
def Sets (lookup : Lookup) (key : SettingKey) (n : Int) : Prop :=
  ∃ text, lookup key = some text
    ∧ SpellsInteger (Text.trim text.toList) n ∧ FitsInteger n

/-- The key is silent or set to a number that it may have. -/
def AcceptsNumber (lookup : Lookup) (key : SettingKey) (takes : Int → Prop) : Prop :=
  Silent lookup key ∨ ∃ n, Sets lookup key n ∧ takes n

/-- The key is absent or has more than blanks. -/
def AcceptsPath (lookup : Lookup) (key : SettingKey) : Prop :=
  ∀ text, lookup key = some text → Text.trim text.toList ≠ []

/-- What is configured for the key makes sense. -/
def Accepted (lookup : Lookup) : SettingKey → Prop
  | .seed => AcceptsNumber lookup .seed fun n => 0 ≤ n ∧ n ≤ 4294967295
  | .feedTimeout => AcceptsNumber lookup .feedTimeout fun n => 1 ≤ n
  | .days => AcceptsNumber lookup .days fun _ => True
  | .poolSize => AcceptsNumber lookup .poolSize fun n => 1 ≤ n
  | .feedPath => AcceptsPath lookup .feedPath
  | .csvPath => AcceptsPath lookup .csvPath
  | .databasePath => AcceptsPath lookup .databasePath

/-- The problem is one of the configuration. -/
def Has (lookup : Lookup) : SettingProblem → Prop
  | .notInteger key => ¬Silent lookup key ∧ ∀ n, ¬Sets lookup key n
  | .seedOutOfRange => ∃ n, Sets lookup .seed n ∧ ¬(0 ≤ n ∧ n ≤ 4294967295)
  | .timeoutNotPositive => ∃ n, Sets lookup .feedTimeout n ∧ ¬1 ≤ n
  | .poolTooSmall => ∃ n, Sets lookup .poolSize n ∧ ¬1 ≤ n
  | .blankPath key => ∃ text, lookup key = some text ∧ Text.trim text.toList = []

variable {lookup : Lookup} {key : SettingKey}

/-- The integer of a key is looked up in three ways: there is none, there is one, or what is
there is none.
-/
theorem integer_cases (lookup : Lookup) (key : SettingKey)
    : (Silent lookup key ∧ integer lookup key = .ok none)
      ∨ (∃ n, Sets lookup key n ∧ integer lookup key = .ok (some n))
      ∨ (Has lookup (.notInteger key) ∧ integer lookup key = .error (.notInteger key)) := by
  unfold integer
  cases configured : lookup key with
  | none => exact .inl ⟨fun text said => by simp [configured] at said, rfl⟩
  | some text =>
      have only {other : String} (said : lookup key = some other) : text = other :=
        Option.some.inj (configured.symm.trans said)
      cases trimmed : Text.trim text.toList with
      | nil =>
          refine .inl ⟨fun other said => ?_, by simp [trimmed]⟩
          rw [← only said, trimmed]
      | cons c rest =>
          simp only [Option.map_some, trimmed]
          cases read : Decimal.integer64? (c :: rest) with
          | some n =>
              have spells := integer64?_eq_some_iff.1 read
              rw [← trimmed] at spells
              exact .inr (.inl ⟨n, ⟨text, configured, spells⟩, rfl⟩)
          | none =>
              refine .inr (.inr ⟨⟨fun silent => ?_, ?_⟩, rfl⟩)
              · simp [silent text configured] at trimmed
              · rintro n ⟨other, said, spells⟩
                rw [← only said, trimmed, ← integer64?_eq_some_iff, read] at spells
                contradiction

theorem not_sets_of_silent (silent : Silent lookup key) (n : Int) : ¬Sets lookup key n := by
  rintro ⟨text, said, ⟨sign, digits, whole, valid, _⟩, _⟩
  rw [silent text said] at whole
  exact valid.some (List.append_eq_nil_iff.1 whole.symm).2

/-- A key is set to one number at most. -/
theorem sets_unique {n m : Int} (one : Sets lookup key n) (other : Sets lookup key m)
    : n = m := by
  obtain ⟨text, said, spells⟩ := one
  obtain ⟨text', said', spells'⟩ := other
  obtain rfl := Option.some.inj (said.symm.trans said')
  have read := integer64?_eq_some_iff.2 spells
  rw [integer64?_eq_some_iff.2 spells'] at read
  exact (Option.some.inj read).symm

-----------------------------------------------------------------------------------------
-- Checks in order
-----------------------------------------------------------------------------------------

/-- The outcome of checking keys one after another: every key is accepted, or the first that is
not is reported with its problem.
-/
def Checks {α : Type} (lookup : Lookup) (keys : List SettingKey)
    : Except SettingProblem α → Prop
  | .ok _ => ∀ key ∈ keys, Accepted lookup key
  | .error p =>
    Has lookup p ∧ ∃ before after, keys = before ++ p.key :: after
      ∧ (∀ key ∈ before, Accepted lookup key) ∧ ¬Accepted lookup p.key

/-- The problem is that of a key that is not accepted. -/
def Refused (lookup : Lookup) (key : SettingKey) (p : SettingProblem) : Prop :=
  Has lookup p ∧ p.key = key ∧ ¬Accepted lookup key

/-- Keys are checked as any other things are. -/
theorem checks_iff {α : Type} {keys : List SettingKey} {x : Except SettingProblem α}
    : Checks lookup keys x ↔ Outcome.Checks (Accepted lookup) (Refused lookup) keys x := by
  cases x with
  | ok a => rfl
  | error p =>
      constructor
      · rintro ⟨has, before, after, whole, all, refused⟩
        exact ⟨before, p.key, after, whole, all, has, rfl, refused⟩
      · rintro ⟨before, _, after, whole, all, has, rfl, refused⟩
        exact ⟨has, before, after, whole, all, refused⟩

theorem Checks.bind {α β : Type} {keys : List SettingKey} {x : Except SettingProblem α}
    {f : α → Except SettingProblem β} (first : Checks lookup [key] x)
    (others : ∀ a, Checks lookup keys (f a))
    : Checks lookup (key :: keys) (x >>= f) :=
  checks_iff.2 ((checks_iff.1 first).bind fun a _ => checks_iff.1 (others a))

/-- A check that succeeds leads to settings just if every key is accepted. -/
theorem Checks.exists_ok_iff {α : Type} {keys : List SettingKey} {x : Except SettingProblem α}
    (checks : Checks lookup keys x)
    : (∃ a, x = .ok a) ↔ ∀ key ∈ keys, Accepted lookup key :=
  (checks_iff.1 checks).exists_ok_iff fun _ _ refused => refused.2.2

theorem checks_checked {takes : Int → Prop} {holds : Int → Bool} {problem : SettingProblem}
    (accepts : Accepted lookup key ↔ AcceptsNumber lookup key takes)
    (means : ∀ n, holds n = true ↔ takes n) (own : problem.key = key)
    (has : ∀ n, Sets lookup key n → ¬takes n → Has lookup problem)
    : Checks lookup [key] (checked lookup key holds problem) := by
  unfold checked
  rcases integer_cases lookup key with ⟨silent, read⟩ | ⟨n, sets, read⟩ | ⟨fault, read⟩
  · rw [read]
    exact List.forall_mem_singleton.2 (accepts.2 (.inl silent))
  · rw [read]
    by_cases taken : takes n
    · have passes : holds n = true := (means n).2 taken
      simp only [bind, Except.bind, passes, if_true]
      exact List.forall_mem_singleton.2 (accepts.2 (.inr ⟨n, sets, taken⟩))
    · have fails : holds n = false :=
        Bool.eq_false_iff.2 fun passes => taken ((means n).1 passes)
      simp only [bind, Except.bind, fails, Bool.false_eq_true, if_false]
      refine ⟨has n sets taken, [], [], by rw [own]; rfl, List.forall_mem_nil _, ?_⟩
      rw [own, accepts]
      rintro (silent | ⟨m, other, taking⟩)
      · exact not_sets_of_silent silent n sets
      · exact taken (sets_unique other sets ▸ taking)
  · rw [read]
    refine ⟨fault, [], [], rfl, List.forall_mem_nil _, ?_⟩
    change ¬Accepted lookup key
    rw [accepts]
    rintro (silent | ⟨m, other, _⟩)
    · exact fault.1 silent
    · exact fault.2 m other

theorem path_cases (lookup : Lookup) (key : SettingKey)
    : (AcceptsPath lookup key ∧ path lookup key = .ok ((lookup key).map Text.trimmed))
      ∨ (Has lookup (.blankPath key) ∧ path lookup key = .error (.blankPath key)) := by
  unfold path
  cases configured : lookup key with
  | none => exact .inl ⟨fun text set => by simp [configured] at set, rfl⟩
  | some text =>
      by_cases blank : Text.trim text.toList = []
      · exact .inr ⟨⟨text, configured, blank⟩, by simp [Text.trimmed, blank]⟩
      · refine .inl ⟨fun other set => ?_, ?_⟩
        · obtain rfl := Option.some.inj (configured.symm.trans set)
          exact blank
        · rw [Option.map_some]
          split
          next none => contradiction
          next empty =>
            have empty : Text.trimmed text = "" := Option.some.inj empty
            exact absurd (by simpa [Text.trimmed] using empty) blank
          next same => rw [same]

theorem checks_path (accepts : Accepted lookup key ↔ AcceptsPath lookup key)
    : Checks lookup [key] (path lookup key) := by
  rcases path_cases lookup key with ⟨accepted, read⟩ | ⟨fault, read⟩
  · rw [read]
    exact List.forall_mem_singleton.2 (accepts.2 accepted)
  · rw [read]
    refine ⟨fault, [], [], rfl, List.forall_mem_nil _, fun accepted => ?_⟩
    obtain ⟨text, set, blank⟩ := fault
    exact accepts.1 accepted text set blank

/-- Looking a number up is a check that every number passes. -/
theorem integer_eq_checked (lookup : Lookup) (key : SettingKey) (problem : SettingProblem)
    : integer lookup key = checked lookup key (fun _ => true) problem := by
  unfold checked
  cases integer lookup key with
  | error p => rfl
  | ok a => cases a <;> rfl

/-- Settings are made by checking every key in order. -/
theorem checks_of (lookup : Lookup) : Checks lookup SettingKey.inOrder (of lookup) := by
  have inRange (n : Int)
      : (0 ≤ n && n.toNat < UInt32.size) = true ↔ 0 ≤ n ∧ n ≤ 4294967295 := by
    have size : UInt32.size = 4294967296 := rfl
    simp only [Bool.and_eq_true, decide_eq_true_eq]
    omega
  have positive (n : Int) : decide (0 < n) = true ↔ 1 ≤ n := decide_eq_true_iff
  have least (n : Int) : decide (1 ≤ n) = true ↔ 1 ≤ n := decide_eq_true_iff
  unfold of
  refine .bind (checks_checked .rfl inRange rfl fun n sets out => ⟨n, sets, out⟩) fun _ => ?_
  refine .bind (checks_checked .rfl positive rfl fun n sets out => ⟨n, sets, out⟩) fun _ => ?_
  rw [integer_eq_checked lookup .days (.notInteger .days)]
  refine .bind (checks_checked .rfl (fun _ => iff_of_true rfl trivial) rfl
    fun _ _ out => absurd trivial out) fun _ => ?_
  refine .bind (checks_checked .rfl least rfl fun n sets out => ⟨n, sets, out⟩) fun _ => ?_
  refine .bind (checks_path .rfl) fun _ => ?_
  refine .bind (checks_path .rfl) fun _ => ?_
  refine .bind (checks_path .rfl) fun _ => ?_
  exact List.forall_mem_nil _

-----------------------------------------------------------------------------------------
-- What holds
-----------------------------------------------------------------------------------------

/-- A value is what is meant by the number that the key is set to, or the standard one. -/
structure Follows (lookup : Lookup) (key : SettingKey) (meant : Int → Int)
    (standard value : Int) : Prop where
  set : ∀ n, Sets lookup key n → value = meant n
  silent : Silent lookup key → value = standard

/-- The settings are those that are configured. -/
structure Resolved (lookup : Lookup) (s : Settings) : Prop where
  seed : Follows lookup .seed id standard.seed.toNat s.seed.toNat
  feedTimeout : Follows lookup .feedTimeout id standard.feedTimeout s.feedTimeout
  days
    : Follows lookup .days (fun n => max 20 (min 120 n)) standard.days.toNat s.days.toNat
  poolSize
    : Follows lookup .poolSize (fun n => if n ≤ 4294967295 then n else standard.poolSize.toNat)
        standard.poolSize.toNat s.poolSize.toNat
  feedPath : s.feedPath = (lookup .feedPath).map Text.trimmed
  csvPath : s.csvPath = (lookup .csvPath).map Text.trimmed
  databasePath : s.databasePath = (lookup .databasePath).map Text.trimmed

theorem follows_of_integer {a : Option Int} (read : integer lookup key = .ok a)
    {meant : Int → Int} {standard value : Int} (same : value = (a.map meant).getD standard)
    : Follows lookup key meant standard value := by
  rcases integer_cases lookup key with ⟨silent, found⟩ | ⟨n, sets, found⟩ | ⟨_, found⟩
  · obtain rfl := Except.ok.inj (read.symm.trans found)
    exact ⟨fun m other => absurd other (not_sets_of_silent silent m), fun _ => same⟩
  · obtain rfl := Except.ok.inj (read.symm.trans found)
    refine ⟨fun m other => ?_, fun silent => absurd sets (not_sets_of_silent silent n)⟩
    rw [same, sets_unique other sets]
    rfl
  · rw [read] at found
    contradiction

theorem integer_of_checked {holds : Int → Bool} {problem : SettingProblem} {a : Option Int}
    (read : checked lookup key holds problem = .ok a)
    : integer lookup key = .ok a ∧ ∀ n, a = some n → holds n = true := by
  obtain ⟨b, found, passed⟩ := Outcome.bind_eq_ok.1 read
  cases b with
  | none =>
      obtain rfl := Except.ok.inj passed
      exact ⟨found, nofun⟩
  | some n =>
      dsimp only at passed
      split at passed
      next holding =>
        obtain rfl := Except.ok.inj passed
        refine ⟨found, ?_⟩
        rintro _ ⟨⟩
        exact holding
      next => contradiction

theorem path_eq_ok {p : Option String} (read : path lookup key = .ok p)
    : p = (lookup key).map Text.trimmed := by
  rcases path_cases lookup key with ⟨_, found⟩ | ⟨_, found⟩
  · exact Except.ok.inj (read.symm.trans found)
  · rw [read] at found
    contradiction

theorem toNat_ofNat_toNat {n : Int} (least : 0 ≤ n) (small : n.toNat < UInt32.size)
    : ((UInt32.ofNat n.toNat).toNat : Int) = n := by
  rw [UInt32.toNat_ofNat_of_lt' small]
  exact Int.toNat_of_nonneg least

/-- The window of days that a number asks for is that number, held between `20` and `120`. -/
theorem toNat_windowOf (n : Int) : ((windowOf n).toNat : Int) = max 20 (min 120 n) := by
  have size : UInt32.size = 4294967296 := rfl
  have days : (UInt32.ofNat (min n.toNat (UInt32.size - 1))).toNat
      = min n.toNat (UInt32.size - 1) := by
    refine UInt32.toNat_ofNat_of_lt' ?_
    omega
  rw [windowOf, Timeline.toNat_window, days]
  omega

theorem resolved_of_eq_ok {s : Settings} (made : of lookup = .ok s) : Resolved lookup s := by
  unfold of at made
  obtain ⟨seed, readSeed, made⟩ := Outcome.bind_eq_ok.1 made
  obtain ⟨timeout, readTimeout, made⟩ := Outcome.bind_eq_ok.1 made
  obtain ⟨days, readDays, made⟩ := Outcome.bind_eq_ok.1 made
  obtain ⟨poolSize, readSize, made⟩ := Outcome.bind_eq_ok.1 made
  obtain ⟨feedPath, readFeed, made⟩ := Outcome.bind_eq_ok.1 made
  obtain ⟨csvPath, readTable, made⟩ := Outcome.bind_eq_ok.1 made
  obtain ⟨databasePath, readDatabase, made⟩ := Outcome.bind_eq_ok.1 made
  obtain rfl := Except.ok.inj made
  obtain ⟨readSeed, inRange⟩ := integer_of_checked readSeed
  obtain ⟨readTimeout, positive⟩ := integer_of_checked readTimeout
  obtain ⟨readSize, least⟩ := integer_of_checked readSize
  constructor
  case seed =>
    refine follows_of_integer readSeed ?_
    cases seed with
    | none => rfl
    | some n =>
        obtain ⟨natural, small⟩ := Bool.and_eq_true_iff.1 (inRange n rfl)
        exact toNat_ofNat_toNat (of_decide_eq_true natural) (of_decide_eq_true small)
  case feedTimeout =>
    refine follows_of_integer readTimeout ?_
    cases timeout with
    | none => rfl
    | some n =>
        have positive := of_decide_eq_true (positive n rfl)
        exact Int.toNat_of_nonneg (Int.le_of_lt positive)
  case days =>
    refine follows_of_integer readDays ?_
    cases days with
    | none => rfl
    | some n => exact toNat_windowOf n
  case poolSize =>
    refine follows_of_integer readSize ?_
    cases poolSize with
    | none => rfl
    | some n =>
        have least := of_decide_eq_true (least n rfl)
        have size : UInt32.size = 4294967296 := rfl
        by_cases small : n.toNat < UInt32.size
        · have fits : n ≤ 4294967295 := by omega
          simp only [small, fits, if_true, Option.map_some, Option.getD_some]
          exact toNat_ofNat_toNat (by omega) small
        · have large : ¬n ≤ 4294967295 := by omega
          simp only [small, large, if_false, Option.map_some, Option.getD_some]
  case feedPath => exact path_eq_ok readFeed
  case csvPath => exact path_eq_ok readTable
  case databasePath => exact path_eq_ok readDatabase

/-- What a configuration of seven keys leads to, whatever their texts. Settings exist just if
every key is accepted, and what is configured is what holds then, but for a size of the pool that
32 bits do not hold, which leaves the standard one. Otherwise the first key that is not accepted
is reported, with a problem that it has.
-/
theorem of_law (lookup : Lookup)
    : ((∃ s, of lookup = .ok s) ↔ ∀ key, Accepted lookup key)
      ∧ (∀ s, of lookup = .ok s → Resolved lookup s)
      ∧ ∀ p, of lookup = .error p →
          Has lookup p ∧ ∃ before after, SettingKey.inOrder = before ++ p.key :: after
            ∧ (∀ key ∈ before, Accepted lookup key) ∧ ¬Accepted lookup p.key := by
  have checks := checks_of lookup
  refine ⟨?_, fun s made => resolved_of_eq_ok made, fun p failed => ?_⟩
  · rw [checks.exists_ok_iff]
    exact ⟨fun all key => all key key.mem_inOrder, fun all key _ => all key⟩
  · rwa [failed] at checks

namespace LargePool

/-- A pool of a size that takes 33 bits, and nothing else. -/
def configured : Lookup
  | .poolSize => some "4294967296"
  | _ => none

/-- The configured size is accepted, and another one holds. -/
theorem of_large
    : Sets configured .poolSize 4294967296 ∧ of configured = .ok standard
      ∧ standard.poolSize.toNat = 4 := by
  have read : Decimal.integer64? (Text.trim "4294967296".toList) = some 4294967296 := by
    decide
  exact ⟨⟨"4294967296", rfl, integer64?_eq_some_iff.1 read⟩, by decide, rfl⟩

end LargePool

end Settings

end Screener
