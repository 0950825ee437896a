import Screener.Proofs.Decimal.ReadBack
import Screener.Proofs.Draws
import Screener.SeedKey

/-!
Keys of runs and the seeds folded from them. The numbers of a key are told from the end of its
text, and the rest is the code and the name as they are joined. No step of the fold loses
anything, so that texts which differ in a single unit have different hashes.
-/

namespace Screener

open Decimal (isDigit natural)
open Draws (wordAfter)

-----------------------------------------------------------------------------------------
-- Texts joined by a separator
-----------------------------------------------------------------------------------------

section Joined

variable {separator : Char} {front front' back back' : List Char}

theorem takeWhile_append_cons (apart : separator ∉ front)
    : (front ++ separator :: back).takeWhile (· != separator) = front := by
  have run : ∀ c ∈ front, (c != separator) = true := by
    intro c member
    exact bne_iff_ne.2 fun same => apart (same ▸ member)
  rw [List.takeWhile_append_of_pos run, List.takeWhile_cons_of_neg (by simp), List.append_nil]

/-- A first part without the separator is told from what follows it. -/
theorem append_cons_inj_of_front (apart : separator ∉ front) (apart' : separator ∉ front')
    : front ++ separator :: back = front' ++ separator :: back'
      ↔ front = front' ∧ back = back' := by
  refine ⟨fun same => ?_, fun ⟨first, second⟩ => first ▸ second ▸ rfl⟩
  have fronts := congrArg (List.takeWhile (· != separator)) same
  rw [takeWhile_append_cons apart, takeWhile_append_cons apart'] at fronts
  subst fronts
  exact ⟨rfl, (List.cons.inj (List.append_cancel_left same)).2⟩

/-- A last part without the separator is told from what precedes it. -/
theorem append_cons_inj_of_back (apart : separator ∉ back) (apart' : separator ∉ back')
    : front ++ separator :: back = front' ++ separator :: back'
      ↔ front = front' ∧ back = back' := by
  have turned (a b : List Char)
      : (a ++ separator :: b).reverse = b.reverse ++ separator :: a.reverse := by
    simp
  rw [← List.reverse_inj, turned, turned,
    append_cons_inj_of_front (mt List.mem_reverse.1 apart) (mt List.mem_reverse.1 apart'),
    List.reverse_inj, List.reverse_inj, and_comm]

end Joined

-----------------------------------------------------------------------------------------
-- Keys as texts
-----------------------------------------------------------------------------------------

namespace SeedKey

/-- What a strategy is called in a key. -/
def called (name : String) : String := if name = "" then "draft" else name

theorem of_eq (code name : String) (days seed : UInt32)
    : of code name days seed = ⟨code, called name, days, seed⟩ :=
  rfl

theorem notMem_natural (n : Nat) : '_' ∉ natural n := by
  intro member
  exact absurd (Decimal.isDigit_of_mem_natural member) (by decide)

theorem toList_text (key : SeedKey)
    : key.text.toList
      = ((key.code ++ "_" ++ key.name).toList ++ '_' :: natural key.days.toNat)
        ++ '_' :: natural key.seed.toNat := by
  simp only [text, String.toList_append, List.append_assoc, List.cons_append, Nat.toList_repr,
    natural]
  rfl

/-- The texts of two keys tell all but where the code ends and the name starts. -/
theorem text_inj (key key' : SeedKey)
    : key.text = key'.text
      ↔ key.days = key'.days ∧ key.seed = key'.seed
        ∧ key.code ++ "_" ++ key.name = key'.code ++ "_" ++ key'.name := by
  rw [← String.toList_inj, toList_text, toList_text,
    append_cons_inj_of_back (notMem_natural _) (notMem_natural _),
    append_cons_inj_of_back (notMem_natural _) (notMem_natural _), Decimal.natural_inj,
    Decimal.natural_inj, UInt32.toNat_inj, UInt32.toNat_inj, String.toList_inj, and_assoc, and_comm,
    and_assoc]

/-- A code without an underscore is told from the name behind it. -/
theorem append_name_inj {code code' name name' : String} (apart : '_' ∉ code.toList)
    (apart' : '_' ∉ code'.toList)
    : code ++ "_" ++ name = code' ++ "_" ++ name' ↔ code = code' ∧ name = name' := by
  have joined (a b : String) : (a ++ "_" ++ b).toList = a.toList ++ '_' :: b.toList := by
    simp
  rw [← String.toList_inj, joined, joined, append_cons_inj_of_front apart apart', String.toList_inj,
    String.toList_inj]

/-- What two keys with the same text have in common: the window, the seed, and the code joined with
the name. If there is no underscore in the codes, which may be one in the names, they have all in
common.
-/
theorem text_of_inj (code code' name name' : String) (days days' seed seed' : UInt32)
    : ((of code name days seed).text = (of code' name' days' seed').text
        ↔ days = days' ∧ seed = seed'
          ∧ code ++ "_" ++ called name = code' ++ "_" ++ called name')
      ∧ ('_' ∉ code.toList → '_' ∉ code'.toList →
          (of code name days seed).text = (of code' name' days' seed').text →
            code = code' ∧ called name = called name' ∧ days = days' ∧ seed = seed') := by
  have common := text_inj (of code name days seed) (of code' name' days' seed')
  refine ⟨common, fun apart apart' same => ?_⟩
  obtain ⟨window, start, joined⟩ := common.1 same
  obtain ⟨first, second⟩ := (append_name_inj apart apart').1 joined
  exact ⟨first, second, window, start⟩

/-- Witness: the key of a strategy without a name and that of one which is called a draft. -/
theorem text_of_inj_draft
    : ('_' ∉ "600519".toList
        ∧ (of "600519" "" 60 1234567).text = (of "600519" "draft" 60 1234567).text)
      ∧ called "" = called "draft" := by
  have terms : '_' ∉ "600519".toList
      ∧ (of "600519" "" 60 1234567).text = (of "600519" "draft" 60 1234567).text := by
    decide
  have same := (text_of_inj "600519" "600519" "" "draft" 60 60 1234567 1234567).2
  exact ⟨terms, (same terms.1 terms.1 terms.2).2.1⟩

/-- An underscore may be taken for the end of a code. -/
example : (of "A_1" "B" 60 0).text = (of "A" "1_B" 60 0).text := by decide

end SeedKey

-----------------------------------------------------------------------------------------
-- Hashes
-----------------------------------------------------------------------------------------

/-- The factor of the hash can be divided by. -/
theorem mul_factor_inj {a b : UInt32} : a * 16777619 = b * 16777619 ↔ a = b := by
  refine ⟨fun same => ?_, fun same => same ▸ rfl⟩
  have inverse : (16777619 : UInt32) * 899433627 = 1 := by decide
  have divided := congrArg (· * (899433627 : UInt32)) same
  simpa only [UInt32.mul_assoc, inverse, UInt32.mul_one] using divided

/-- A step of the hash keeps different hashes apart. -/
theorem mixUnit_hash_inj {hash hash' : UInt32} (unit : UInt32)
    : mixUnit hash unit = mixUnit hash' unit ↔ hash = hash' := by
  rw [mixUnit, mixUnit, mul_factor_inj, UInt32.xor_left_inj]

/-- A step of the hash tells different units apart. -/
theorem mixUnit_unit_inj (hash : UInt32) {unit unit' : UInt32}
    : mixUnit hash unit = mixUnit hash unit' ↔ unit = unit' := by
  rw [mixUnit, mixUnit, mul_factor_inj, UInt32.xor_right_inj]

/-- Different hashes stay apart whatever is mixed into both. By induction along the units. -/
theorem foldl_mixUnit_inj (units : List UInt32) {hash hash' : UInt32}
    : units.foldl mixUnit hash = units.foldl mixUnit hash' ↔ hash = hash' := by
  induction units generalizing hash hash' with
  | nil => rfl
  | cons unit units ih => rw [List.foldl_cons, List.foldl_cons, ih, mixUnit_hash_inj]

/-- The UTF-16 code units of a text. -/
def unitsOf (text : String) : List UInt32 := text.toList.flatMap units16

theorem textHash_append (text rest : String)
    : textHash (text ++ rest) = (unitsOf rest).foldl mixUnit (textHash text) := by
  rw [textHash, String.toList_append, List.flatMap_append, List.foldl_append]
  rfl

/-- The lists are the same but for an `x` in one in the place of a `y` in the other. -/
def DifferAt {α : Type} (x y : α) (xs ys : List α) : Prop :=
  ∃ front back, xs = front ++ x :: back ∧ ys = front ++ y :: back

namespace DifferAt

variable {α : Type} {x y : α} {xs ys : List α}

theorem append_left (differ : DifferAt x y xs ys) (before : List α)
    : DifferAt x y (before ++ xs) (before ++ ys) := by
  obtain ⟨front, back, rfl, rfl⟩ := differ
  exact ⟨before ++ front, back, (List.append_assoc _ _ _).symm, (List.append_assoc _ _ _).symm⟩

theorem append_right (differ : DifferAt x y xs ys) (after : List α)
    : DifferAt x y (xs ++ after) (ys ++ after) := by
  obtain ⟨front, back, rfl, rfl⟩ := differ
  exact ⟨front, back ++ after, List.append_assoc _ _ _, List.append_assoc _ _ _⟩

end DifferAt

/-- Texts that differ in one unit have different hashes: the hashes part at that unit, and stay
apart from there.
-/
theorem textHash_ne {text text' : String} {unit unit' : UInt32} (apart : unit ≠ unit')
    (differ : DifferAt unit unit' (unitsOf text) (unitsOf text'))
    : textHash text ≠ textHash text' := by
  obtain ⟨front, back, whole, whole'⟩ := differ
  change (unitsOf text).foldl mixUnit _ ≠ (unitsOf text').foldl mixUnit _
  rw [whole, whole', List.foldl_append, List.foldl_append, List.foldl_cons, List.foldl_cons, Ne,
    foldl_mixUnit_inj, mixUnit_unit_inj]
  exact apart

/-- The character is in the basic plane, where it is a single unit. -/
def IsBasic (c : Char) : Prop := c.toNat < 0x10000

theorem units16_of_isBasic {c : Char} (basic : IsBasic c) : units16 c = [UInt32.ofNat c.toNat] :=
  if_pos basic

theorem unit_inj {c d : Char} (basic : IsBasic c) (basic' : IsBasic d)
    : UInt32.ofNat c.toNat = UInt32.ofNat d.toNat ↔ c = d := by
  refine ⟨fun same => ?_, fun same => same ▸ rfl⟩
  have small : c.toNat < UInt32.size := Nat.lt_trans basic (by decide)
  have small' : d.toNat < UInt32.size := Nat.lt_trans basic' (by decide)
  have codes := congrArg UInt32.toNat same
  rw [UInt32.toNat_ofNat_of_lt' small, UInt32.toNat_ofNat_of_lt' small'] at codes
  rw [← Char.ofNat_toNat c, ← Char.ofNat_toNat d, codes]

theorem isBasic_of_mem_natural {n : Nat} {c : Char} (member : c ∈ natural n) : IsBasic c := by
  have digit := Decimal.isDigit_of_mem_natural member
  have last : c.toNat ≤ '9'.toNat := of_decide_eq_true (Bool.and_eq_true_iff.1 digit).2
  exact Nat.lt_of_le_of_lt last (by decide)

/-- Texts that differ in one basic character differ in one unit. -/
theorem DifferAt.units {text text' : String} {c d : Char}
    (differ : DifferAt c d text.toList text'.toList) (basic : IsBasic c) (basic' : IsBasic d)
    : DifferAt (UInt32.ofNat c.toNat) (UInt32.ofNat d.toNat) (unitsOf text) (unitsOf text') := by
  obtain ⟨front, back, whole, whole'⟩ := differ
  refine ⟨front.flatMap units16, back.flatMap units16, ?_, ?_⟩
  · rw [unitsOf, whole, List.flatMap_append, List.flatMap_cons, units16_of_isBasic basic]
    rfl
  · rw [unitsOf, whole', List.flatMap_append, List.flatMap_cons, units16_of_isBasic basic']
    rfl

-----------------------------------------------------------------------------------------
-- Seeds of runs
-----------------------------------------------------------------------------------------

namespace SeedKey

/-- The runs of two keys have different seeds, and different words before the first draw and after
each.
-/
structure Diverge (key key' : SeedKey) : Prop where
  seeds : key.runSeed ≠ key'.runSeed
  words : ∀ count, wordAfter key.runSeed count ≠ wordAfter key'.runSeed count

/-- Keys whose texts differ in one basic character diverge. -/
theorem diverge_of_differAt {key key' : SeedKey} {c d : Char} (apart : c ≠ d) (basic : IsBasic c)
    (basic' : IsBasic d) (differ : DifferAt c d key.text.toList key'.text.toList)
    : Diverge key key' := by
  have units := mt (unit_inj basic basic').1 apart
  have seeds := textHash_ne units (differ.units basic basic')
  exact ⟨seeds, fun count => mt (Draws.wordAfter_inj count).1 seeds⟩

/-- A name with a character in it is what a strategy is called. -/
theorem called_of_mem {name : String} {c : Char} (member : c ∈ name.toList)
    : called name = name := by
  refine if_neg fun none => ?_
  rw [none] at member
  contradiction

/-- One unit tells hashes apart. What follows two texts does not change whether their hashes are the
same, and texts that differ in one unit have different ones. So runs diverge whose keys differ in
one digit of the seed or of the window, or in one basic character of the name.
-/
theorem textHash_law
    : (∀ text text' rest : String,
        textHash (text ++ rest) = textHash (text' ++ rest) ↔ textHash text = textHash text')
      ∧ (∀ (text text' : String) (unit unit' : UInt32), unit ≠ unit' →
          DifferAt unit unit' (unitsOf text) (unitsOf text') → textHash text ≠ textHash text')
      ∧ ∀ (code name : String) (days seed : UInt32) (c d : Char), c ≠ d →
          (∀ seed' : UInt32, DifferAt c d seed.toNat.repr.toList seed'.toNat.repr.toList →
              Diverge (of code name days seed) (of code name days seed'))
          ∧ (∀ days' : UInt32, DifferAt c d days.toNat.repr.toList days'.toNat.repr.toList →
              Diverge (of code name days seed) (of code name days' seed))
          ∧ ∀ name' : String, IsBasic c → IsBasic d → DifferAt c d name.toList name'.toList →
              Diverge (of code name days seed) (of code name' days seed) := by
  refine ⟨fun text text' rest => ?_, fun text text' unit unit' => textHash_ne, ?_⟩
  · rw [textHash_append, textHash_append, foldl_mixUnit_inj]
  intro code name days seed c d apart
  have digits {n m : Nat} (differ : DifferAt c d n.repr.toList m.repr.toList)
      : IsBasic c ∧ IsBasic d := by
    obtain ⟨front, back, whole, whole'⟩ := differ
    rw [Nat.toList_repr] at whole whole'
    constructor
    · exact isBasic_of_mem_natural (n := n) (by rw [natural, whole]; simp)
    · exact isBasic_of_mem_natural (n := m) (by rw [natural, whole']; simp)
  refine ⟨fun seed' differ => ?_, fun days' differ => ?_, fun name' basic basic' differ => ?_⟩
  · obtain ⟨basic, basic'⟩ := digits differ
    refine diverge_of_differAt apart basic basic' ?_
    rw [Nat.toList_repr, Nat.toList_repr] at differ
    rw [toList_text, toList_text]
    exact (differ.append_left ['_']).append_left _
  · obtain ⟨basic, basic'⟩ := digits differ
    refine diverge_of_differAt apart basic basic' ?_
    rw [Nat.toList_repr, Nat.toList_repr] at differ
    rw [toList_text, toList_text]
    exact ((differ.append_left ['_']).append_left _).append_right _
  · refine diverge_of_differAt apart basic basic' ?_
    have names : DifferAt c d (called name).toList (called name').toList := by
      obtain ⟨front, back, whole, whole'⟩ := differ
      rw [called_of_mem (c := c) (by rw [whole]; simp),
        called_of_mem (c := d) (by rw [whole']; simp)]
      exact ⟨front, back, whole, whole'⟩
    simp only [toList_text, of_eq, String.toList_append]
    exact ((names.append_left _).append_right _).append_right _

/-- Witness: the seed that comes next, the window that comes next, and another name. -/
theorem textHash_law_neighbours
    : (DifferAt '7' '8' (1234567 : UInt32).toNat.repr.toList (1234568 : UInt32).toNat.repr.toList
        ∧ Diverge (of "600519" "" 60 1234567) (of "600519" "" 60 1234568))
      ∧ (DifferAt '0' '1' (60 : UInt32).toNat.repr.toList (61 : UInt32).toNat.repr.toList
        ∧ Diverge (of "600519" "" 60 1234567) (of "600519" "" 61 1234567))
      ∧ (IsBasic '甲' ∧ IsBasic '乙' ∧ DifferAt '甲' '乙' "甲_1".toList "乙_1".toList)
      ∧ Diverge (of "600519" "甲_1" 60 1234567) (of "600519" "乙_1" 60 1234567) := by
  have law := textHash_law.2.2 "600519"
  have seeds : DifferAt '7' '8' (1234567 : UInt32).toNat.repr.toList
      (1234568 : UInt32).toNat.repr.toList :=
    ⟨"123456".toList, [], by decide, by decide⟩
  have windows : DifferAt '0' '1' (60 : UInt32).toNat.repr.toList (61 : UInt32).toNat.repr.toList :=
    ⟨['6'], [], by decide, by decide⟩
  have names : IsBasic '甲' ∧ IsBasic '乙' ∧ DifferAt '甲' '乙' "甲_1".toList "乙_1".toList :=
    ⟨by unfold IsBasic; decide, by unfold IsBasic; decide, [], ['_', '1'], rfl, rfl⟩
  refine ⟨⟨seeds, ?_⟩, ⟨windows, ?_⟩, names, ?_⟩
  · exact (law "" 60 1234567 '7' '8' (by decide)).1 1234568 seeds
  · exact (law "" 60 1234567 '0' '1' (by decide)).2.1 61 windows
  · exact (law "甲_1" 60 1234567 '甲' '乙' (by decide)).2.2 "乙_1" names.1 names.2.1 names.2.2

end SeedKey

end Screener
