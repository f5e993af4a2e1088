import Mathlib.Data.List.Lex
import Mathlib.Data.Prod.Lex
import RtosLwip.Ptp.BestMaster
import RtosLwip.Ptp.ForeignMaster

/-!
# The Order of the Data Set Comparison

`bmcDataSetComparison` has two parts. Clocks of different grandmasters are
compared by what the grandmasters announce, clocks of one grandmaster by the
way their Announces took. Each part is a lexicographic comparison, and where
the clocks of one grandmaster announce the same of it, the two together are one
lexicographic order.

The 16-bit fields enter this order through a reading of them as numbers. The
wire carries unsigned numbers; the fields of the source are signed, and so is
the reading the comparison makes. The readings agree on two fields of one half
of the range, and are opposite to each other where the halves differ.

## Main definitions

* `Announced`: A clock as its Announce shows it.
* `attributes`, `path`: What the two parts compare, under a reading.
* `Precedes`: The order of figures 27 and 28, under a reading.
* `SameHalves`: No 16-bit field that decides has its halves mixed.

## Theorems

* `compareAnnounced_eq_aBetter_iff`: The comparison is the order of the signed
  reading.
* `precedes_iff_of_sameHalves`, `precedes_iff_of_not_sameHalves`: Where the
  readings agree, and where they are opposite.
* `ordersAsFigures_iff`: When the comparison is the order of the figures.
-/

namespace RtosLwip

namespace Ptp

/-- A clock as its Announce shows it. -/
structure Announced where
  header : MsgHeader
  announce : MsgAnnounce

/-- The clock that sent the Announce. -/
def Announced.sender (a : Announced) : ClockIdentity := a.header.sourcePortIdentity.clockIdentity

/-- `bmcDataSetComparison` of two announced clocks. -/
def compareAnnounced (own : ClockIdentity) (a b : Announced) : Int :=
  bmcDataSetComparison own a.header a.announce b.header b.announce

/-- The octets of an identity as numbers. -/
def octets (id : ClockIdentity) : List Int := id.toList.map fun o => (o.toNat : Int)

/-- A 16-bit field read as an unsigned number. -/
def unsigned (v : Int16) : Int := v.toUInt16.toNat

/-- What figure 27 compares, in its order. -/
def attributes (read : Int16 → Int) (a : MsgAnnounce) : List Int :=
  (a.grandmasterPriority1.toNat : Int) ::
  (a.grandmasterClockQuality.clockClass.toNat : Int) ::
  (a.grandmasterClockQuality.clockAccuracy.toNat : Int) ::
  read a.grandmasterClockQuality.offsetScaledLogVariance ::
  (a.grandmasterPriority2.toNat : Int) ::
  octets a.grandmasterIdentity

/-- What figure 28 compares, in its order. -/
def path (read : Int16 → Int) (a : Announced) : List Int :=
  read a.announce.stepsRemoved :: octets a.sender

/-- The order of figures 27 and 28: the first clock comes before the second. -/
def Precedes (read : Int16 → Int) (a b : Announced) : Prop :=
  attributes read a.announce < attributes read b.announce ∨
  a.announce.grandmasterIdentity = b.announce.grandmasterIdentity ∧ path read a < path read b

/-- Announces of one grandmaster show the same attributes of it. -/
def Consistent (a b : Announced) : Prop :=
  a.announce.grandmasterIdentity = b.announce.grandmasterIdentity →
    a.announce.grandmasterPriority1 = b.announce.grandmasterPriority1 ∧
    a.announce.grandmasterClockQuality = b.announce.grandmasterClockQuality ∧
    a.announce.grandmasterPriority2 = b.announce.grandmasterPriority2

/-- The fields that figure 27 compares before the variance are the same. -/
def SameFirst (a b : MsgAnnounce) : Prop :=
  a.grandmasterPriority1 = b.grandmasterPriority1 ∧
  a.grandmasterClockQuality.clockClass = b.grandmasterClockQuality.clockClass ∧
  a.grandmasterClockQuality.clockAccuracy = b.grandmasterClockQuality.clockAccuracy

/-- Two fields are in the same half of the 16-bit range. -/
def SameHalf (v w : Int16) : Prop := (v.toInt < 0 ↔ w.toInt < 0)

/-- The variances are in one half of the range where it comes to them, and so
    are the steps removed. -/
def SameHalves (a b : Announced) : Prop :=
  (SameFirst a.announce b.announce →
    SameHalf a.announce.grandmasterClockQuality.offsetScaledLogVariance
      b.announce.grandmasterClockQuality.offsetScaledLogVariance) ∧
  (a.announce.grandmasterIdentity = b.announce.grandmasterIdentity →
    SameHalf a.announce.stepsRemoved b.announce.stepsRemoved)

theorem unsigned_eq (v : Int16) :
    unsigned v = if v.toInt < 0 then v.toInt + 65536 else v.toInt := by
  have hlo := v.le_toInt
  have hhi := v.toInt_lt
  simp only [unsigned, ← Int16.toInt_toBitVec, ← UInt16.toNat_toBitVec,
    Int16.toBitVec_toUInt16]
  rw [BitVec.toInt_eq_toNat_cond]
  split <;> split <;> omega

/-- The signed reading keeps the order inside a half of the range. -/
theorem unsigned_lt_iff_of_sameHalf {v w : Int16} (h : SameHalf v w) :
    unsigned v < unsigned w ↔ v.toInt < w.toInt := by
  rw [SameHalf] at h
  rw [unsigned_eq, unsigned_eq]
  split <;> split <;> omega

/-- The signed reading turns the order between the halves round. -/
theorem unsigned_lt_iff_of_not_sameHalf {v w : Int16} (h : ¬ SameHalf v w) :
    unsigned v < unsigned w ↔ w.toInt < v.toInt := by
  have hv := v.le_toInt
  have hw := w.le_toInt
  have hv' := v.toInt_lt
  have hw' := w.toInt_lt
  rw [SameHalf] at h
  rw [unsigned_eq, unsigned_eq]
  split <;> split <;> omega

theorem unsigned_inj {v w : Int16} : unsigned v = unsigned w ↔ v = w := by
  rw [← Int16.toInt_inj, unsigned_eq, unsigned_eq]
  have hv := v.le_toInt
  have hw := w.le_toInt
  have hv' := v.toInt_lt
  have hw' := w.toInt_lt
  split <;> split <;> omega

theorem compareABReturnBetter_eq_aBetter_iff {α : Type} [LT α] [DecidableLT α] (f : α → Int)
    (hlt : ∀ a b, a < b ↔ f a < f b) (a b : α) (next : Int) :
    compareABReturnBetter a b next = aBetter ↔ f a < f b ∨ f a = f b ∧ next = aBetter := by
  simp only [compareABReturnBetter, hlt]
  have hne : bBetter ≠ aBetter := by decide
  split
  · exact iff_of_false hne (by omega)
  · split
    · exact iff_of_true rfl (by omega)
    · constructor
      · intro h
        exact Or.inr ⟨by omega, h⟩
      · intro h
        exact (h.resolve_left (by omega)).2

/-- `memcmp` is the lexicographic comparison of the octets. -/
theorem memcmp_neg_iff {a b : List UInt8} (h : a.length = b.length) :
    memcmp a b < 0 ↔
      a.map (fun o => (o.toNat : Int)) < b.map fun o => (o.toNat : Int) := by
  induction a generalizing b with
  | nil =>
      cases b with
      | nil => exact iff_of_false (Int.lt_irrefl 0) (lt_irrefl _)
      | cons y bs => exact absurd h (by simp only [List.length_nil, List.length_cons]; omega)
  | cons x as ih =>
      cases b with
      | nil => exact absurd h (by simp only [List.length_nil, List.length_cons]; omega)
      | cons y bs =>
          rw [List.map_cons, List.map_cons, List.cons_lt_cons_iff, ← ih (Nat.succ.inj h), memcmp,
            Int.ofNat_lt, ← UInt8.lt_iff_toNat_lt, Int.ofNat_inj, UInt8.toNat_inj]
          by_cases hxy : x = y
          · rw [if_pos hxy, hxy, eq_self, true_and, or_iff_right (UInt8.lt_irrefl y)]
          · rw [if_neg hxy, or_iff_left fun h => hxy h.1]
            split
            · exact iff_of_true (by decide) ‹_›
            · exact iff_of_false (by decide) ‹_›

/-- `memcmp` of two identities. -/
theorem memcmp_identity_neg_iff (a b : ClockIdentity) :
    memcmp a.toList b.toList < 0 ↔ octets a < octets b :=
  memcmp_neg_iff (by rw [Vector.length_toList, Vector.length_toList])

theorem memcmp_identity_eq_zero_iff (a b : ClockIdentity) :
    memcmp a.toList b.toList = 0 ↔ a = b := by
  rw [memcmp_eq_zero_iff (by rw [Vector.length_toList, Vector.length_toList]), Vector.toList_inj]

/-- Part one: clocks of different grandmasters are ordered by the attributes. -/
theorem compareAnnounced_of_ne (own : ClockIdentity) {a b : Announced}
    (hgm : a.announce.grandmasterIdentity ≠ b.announce.grandmasterIdentity) :
    compareAnnounced own a b = aBetter ↔
      attributes Int16.toInt a.announce < attributes Int16.toInt b.announce := by
  have hcomp := mt (memcmp_identity_eq_zero_iff _ _).mp hgm
  have hlt := memcmp_identity_neg_iff a.announce.grandmasterIdentity b.announce.grandmasterIdentity
  have h8 (x y : UInt8) : x < y ↔ (x.toNat : Int) < (y.toNat : Int) := by
    rw [UInt8.lt_iff_toNat_lt, Int.ofNat_lt]
  have h16 (x y : Int16) : x < y ↔ x.toInt < y.toInt := Int16.lt_iff_toInt_lt
  have hlast : (if 0 < memcmp a.announce.grandmasterIdentity.toList
      b.announce.grandmasterIdentity.toList then bBetter else aBetter) = aBetter ↔
      octets a.announce.grandmasterIdentity < octets b.announce.grandmasterIdentity := by
    rw [← hlt]
    split
    · exact iff_of_false (by decide) (by omega)
    · exact iff_of_true rfl (by omega)
  simp only [compareAnnounced, bmcDataSetComparison]
  rw [if_pos hcomp, compareABReturnBetter_eq_aBetter_iff _ h8,
    compareABReturnBetter_eq_aBetter_iff _ h8, compareABReturnBetter_eq_aBetter_iff _ h8,
    compareABReturnBetter_eq_aBetter_iff _ h16, compareABReturnBetter_eq_aBetter_iff _ h8, hlast]
  simp only [attributes, List.cons_lt_cons_iff]

/-- Part two: clocks of one grandmaster are ordered by the path. A sender that
    is the local clock would be answered with an error instead. -/
theorem compareAnnounced_of_eq (own : ClockIdentity) {a b : Announced} (ha : a.sender ≠ own)
    (hb : b.sender ≠ own)
    (hgm : a.announce.grandmasterIdentity = b.announce.grandmasterIdentity) :
    compareAnnounced own a b = aBetter ↔ path Int16.toInt a < path Int16.toInt b := by
  have hcomp := (memcmp_identity_eq_zero_iff _ _).mpr hgm
  have hownA := mt (memcmp_identity_eq_zero_iff a.sender own).mp ha
  have hownB := mt (memcmp_identity_eq_zero_iff b.sender own).mp hb
  have hbetter : bBetter ≠ aBetter := by decide
  have hzero : (0 : Int) ≠ aBetter := by decide
  simp only [Announced.sender] at hownA hownB
  simp only [compareAnnounced, bmcDataSetComparison]
  rw [if_neg (not_not.mpr hcomp), if_neg hownA, if_neg hownB, path, path, List.cons_lt_cons_iff,
    ← memcmp_identity_neg_iff, Announced.sender, Announced.sender]
  -- the rule of one step more or less adds nothing to the order of the steps
  split
  · exact iff_of_false hbetter (by omega)
  · split
    · exact iff_of_true rfl (by omega)
    · split
      · exact iff_of_false hbetter (by omega)
      · split
        · exact iff_of_true rfl (by omega)
        · split
          · exact iff_of_false hbetter (by omega)
          · split
            · exact iff_of_true rfl (by omega)
            · exact iff_of_false hzero (by omega)

theorem attributes_eq_of_consistent (read : Int16 → Int) {a b : Announced} (h : Consistent a b)
    (hgm : a.announce.grandmasterIdentity = b.announce.grandmasterIdentity) :
    attributes read a.announce = attributes read b.announce := by
  have hsame := h hgm
  rw [attributes, attributes, hgm, hsame.1, hsame.2.1, hsame.2.2]

/-- The comparison is the order of the signed reading. -/
theorem compareAnnounced_eq_aBetter_iff (own : ClockIdentity) {a b : Announced}
    (ha : a.sender ≠ own) (hb : b.sender ≠ own) (h : Consistent a b) :
    compareAnnounced own a b = aBetter ↔ Precedes Int16.toInt a b := by
  rw [Precedes]
  by_cases hgm : a.announce.grandmasterIdentity = b.announce.grandmasterIdentity
  · have hnot := attributes_eq_of_consistent Int16.toInt h hgm
    rw [compareAnnounced_of_eq own ha hb hgm, hnot, or_iff_right (lt_irrefl _), and_iff_right hgm]
  · rw [compareAnnounced_of_ne own hgm, or_iff_left fun hand => hgm hand.1]

/-- The order is transitive under either reading. -/
theorem precedes_trans (read : Int16 → Int) {a b c : Announced} (hab : Consistent a b)
    (hbc : Consistent b c) (h₁ : Precedes read a b) (h₂ : Precedes read b c) :
    Precedes read a c := by
  rcases h₁ with h₁ | ⟨hgm₁, hpath₁⟩
  · rcases h₂ with h₂ | ⟨hgm₂, _⟩
    · exact Or.inl (lt_trans h₁ h₂)
    · rw [attributes_eq_of_consistent read hbc hgm₂] at h₁
      exact Or.inl h₁
  · rcases h₂ with h₂ | ⟨hgm₂, hpath₂⟩
    · rw [← attributes_eq_of_consistent read hab hgm₁] at h₂
      exact Or.inl h₂
    · exact Or.inr ⟨hgm₁.trans hgm₂, lt_trans hpath₁ hpath₂⟩

/-- A field decides a lexicographic comparison the same way under both readings
    when its halves are not mixed. -/
theorem lex_iff_of_sameHalf {v w : Int16} (h : SameHalf v w) (p : Prop) :
    (unsigned v < unsigned w ∨ unsigned v = unsigned w ∧ p) ↔
      (v.toInt < w.toInt ∨ v.toInt = w.toInt ∧ p) := by
  rw [unsigned_lt_iff_of_sameHalf h, unsigned_inj, Int16.toInt_inj]

/-- It decides it the other way when they are. -/
theorem lex_iff_of_not_sameHalf {v w : Int16} (h : ¬ SameHalf v w) (p : Prop) :
    (unsigned v < unsigned w ∨ unsigned v = unsigned w ∧ p) ↔
      ¬ (v.toInt < w.toInt ∨ v.toInt = w.toInt ∧ p) := by
  have hne : v ≠ w := by
    rintro rfl
    exact h Iff.rfl
  have hint : v.toInt ≠ w.toInt := mt Int16.toInt_inj.mp hne
  rw [unsigned_lt_iff_of_not_sameHalf h, unsigned_inj, or_iff_left fun hand => hne hand.1,
    or_iff_left fun hand => hint hand.1]
  omega

theorem attributes_lt_iff (read : Int16 → Int) (a b : MsgAnnounce) :
    attributes read a < attributes read b ↔
      [(a.grandmasterPriority1.toNat : Int), a.grandmasterClockQuality.clockClass.toNat,
          a.grandmasterClockQuality.clockAccuracy.toNat]
        < [(b.grandmasterPriority1.toNat : Int), b.grandmasterClockQuality.clockClass.toNat,
          b.grandmasterClockQuality.clockAccuracy.toNat] ∨
      SameFirst a b ∧
        (read a.grandmasterClockQuality.offsetScaledLogVariance
            < read b.grandmasterClockQuality.offsetScaledLogVariance ∨
          read a.grandmasterClockQuality.offsetScaledLogVariance
            = read b.grandmasterClockQuality.offsetScaledLogVariance ∧
          (a.grandmasterPriority2.toNat : Int) :: octets a.grandmasterIdentity
            < (b.grandmasterPriority2.toNat : Int) :: octets b.grandmasterIdentity) := by
  simp only [attributes, List.cons_lt_cons_iff, SameFirst, Int.ofNat_inj, UInt8.toNat_inj,
    lt_irrefl, and_false, or_false]
  tauto

/-- The readings agree on two clocks whose fields have no mixed halves. -/
theorem precedes_iff_of_sameHalves {a b : Announced} (h : SameHalves a b) :
    Precedes unsigned a b ↔ Precedes Int16.toInt a b := by
  rw [Precedes, Precedes, attributes_lt_iff, attributes_lt_iff]
  refine or_congr (or_congr Iff.rfl (and_congr_right fun hfirst => ?_))
    (and_congr_right fun hgm => ?_)
  · exact lex_iff_of_sameHalf (h.1 hfirst) _
  · rw [path, path, path, path, List.cons_lt_cons_iff, List.cons_lt_cons_iff]
    exact lex_iff_of_sameHalf (h.2 hgm) _

theorem first_lt_irrefl {a b : MsgAnnounce} (h : SameFirst a b) :
    ¬ [(a.grandmasterPriority1.toNat : Int), a.grandmasterClockQuality.clockClass.toNat,
        a.grandmasterClockQuality.clockAccuracy.toNat]
      < [(b.grandmasterPriority1.toNat : Int), b.grandmasterClockQuality.clockClass.toNat,
        b.grandmasterClockQuality.clockAccuracy.toNat] := by
  rw [h.1, h.2.1, h.2.2]
  exact lt_irrefl _

/-- They are opposite to each other where a field has. -/
theorem precedes_iff_of_not_sameHalves {a b : Announced} (hab : Consistent a b)
    (h : ¬ SameHalves a b) : Precedes unsigned a b ↔ ¬ Precedes Int16.toInt a b := by
  rcases not_and_or.mp h with hvariance | hsteps
  · rcases Classical.not_imp.mp hvariance with ⟨hfirst, hhalf⟩
    have hgm : a.announce.grandmasterIdentity ≠ b.announce.grandmasterIdentity := by
      intro hgm
      rw [(hab hgm).2.1] at hhalf
      exact hhalf Iff.rfl
    rw [Precedes, Precedes, or_iff_left fun hand => hgm hand.1, or_iff_left fun hand => hgm hand.1,
      attributes_lt_iff, attributes_lt_iff, or_iff_right (first_lt_irrefl hfirst),
      or_iff_right (first_lt_irrefl hfirst), and_iff_right hfirst, and_iff_right hfirst]
    exact lex_iff_of_not_sameHalf hhalf _
  · rcases Classical.not_imp.mp hsteps with ⟨hgm, hhalf⟩
    rw [Precedes, Precedes, attributes_eq_of_consistent unsigned hab hgm,
      attributes_eq_of_consistent Int16.toInt hab hgm, or_iff_right (lt_irrefl _),
      or_iff_right (lt_irrefl _), and_iff_right hgm, and_iff_right hgm, path, path, path, path,
      List.cons_lt_cons_iff, List.cons_lt_cons_iff]
    exact lex_iff_of_not_sameHalf hhalf _

/-- The comparison is antisymmetric and transitive, and it is the order of the
    figures on the numbers the wire carries. -/
def OrdersAsFigures (own : ClockIdentity) (a b c : Announced) : Prop :=
  compareAnnounced own b a = -compareAnnounced own a b ∧
  (compareAnnounced own a b = aBetter → compareAnnounced own b c = aBetter →
    compareAnnounced own a c = aBetter) ∧
  (compareAnnounced own a b = aBetter ↔ Precedes unsigned a b)

theorem compareAnnounced_neg (own : ClockIdentity) (a b : Announced) :
    compareAnnounced own b a = -compareAnnounced own a b :=
  bmcDataSetComparison_neg _ _ _ _ _

/-- The comparison of announced clocks is the order of the figures exactly where
    no 16-bit field that decides has its halves mixed. -/
theorem ordersAsFigures_iff (own : ClockIdentity) (a b c : Announced) (ha : a.sender ≠ own)
    (hb : b.sender ≠ own) (hc : c.sender ≠ own) (hab : Consistent a b) (hbc : Consistent b c)
    (hac : Consistent a c) : OrdersAsFigures own a b c ↔ SameHalves a b := by
  have hfirst := compareAnnounced_eq_aBetter_iff own ha hb hab
  rw [OrdersAsFigures, and_iff_right (compareAnnounced_neg own a b)]
  constructor
  · rintro ⟨_, horder⟩
    by_contra hmixed
    rw [hfirst, precedes_iff_of_not_sameHalves hab hmixed] at horder
    exact (not_iff_self horder.symm).elim
  · intro hsame
    refine ⟨?_, ?_⟩
    · rw [hfirst, compareAnnounced_eq_aBetter_iff own hb hc hbc,
        compareAnnounced_eq_aBetter_iff own ha hc hac]
      exact precedes_trans Int16.toInt hab hbc
    · rw [hfirst, precedes_iff_of_sameHalves hsame]

/-- A clock that sends Announces of the grandmaster zero, some steps from it. -/
def stepsAway (id : UInt8) (steps : Int16) : Announced where
  header := { (default : MsgHeader) with
    sourcePortIdentity := ⟨#v[0, 0, 0, 0xff, 0xfe, 0, 0, id], 1⟩ }
  announce := { (default : MsgAnnounce) with stepsRemoved := steps }

/-- Clocks one, two and three steps away are in order. -/
theorem ordersAsFigures_near :
    OrdersAsFigures (.replicate 8 0) (stepsAway 1 1) (stepsAway 2 2) (stepsAway 3 3) :=
  (ordersAsFigures_iff (.replicate 8 0) (stepsAway 1 1) (stepsAway 2 2) (stepsAway 3 3)
    (by decide) (by decide) (by decide) (by unfold Consistent; decide)
    (by unfold Consistent; decide) (by unfold Consistent; decide)).mpr
    ⟨fun _ => Iff.rfl, fun _ => by unfold SameHalf; decide⟩

/-- A clock 32768 steps away passes for one before the grandmaster. -/
theorem not_ordersAsFigures_far :
    ((stepsAway 1 1).sender ≠ .replicate 8 0 ∧ (stepsAway 2 (-32768)).sender ≠ .replicate 8 0 ∧
      Consistent (stepsAway 1 1) (stepsAway 2 (-32768))) ∧
    ¬ OrdersAsFigures (.replicate 8 0) (stepsAway 1 1) (stepsAway 2 (-32768)) (stepsAway 1 1) := by
  refine ⟨⟨by decide, by decide, by unfold Consistent; decide⟩, ?_⟩
  intro h
  have hbetter : Precedes unsigned (stepsAway 1 1) (stepsAway 2 (-32768)) :=
    Or.inr ⟨rfl, by decide⟩
  exact absurd (h.2.2.mpr hbetter) (by decide)

end Ptp

end RtosLwip
