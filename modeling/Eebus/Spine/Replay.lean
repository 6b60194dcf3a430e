import Eebus.Library.Machine
import Eebus.Library.Window
import Eebus.Spine.Header

/-! A peer's counters over a whole run: none is taken up twice, and none is refused that was merely
overtaken. -/

namespace Eebus.Spine

open Eebus.Library Eebus.Model

variable {taken : List MsgCounter} {value : MsgCounter} {tracker : MsgCounterTracker}

namespace MsgCounterTracker

def machine : Machine MsgCounterTracker MsgCounter CounterCheck where
  step := observe

/-- What was observed since the last restart, the restarting counter included, newest first. -/
def sinceRestart :
    List (Event MsgCounterTracker MsgCounter CounterCheck) → List (MsgCounter × CounterCheck)
  | [] => []
  | e :: past =>
    if e.output = .restarted then [(e.input, e.output)]
    else (e.input, e.output) :: sinceRestart past

/-- The counters taken up among these observations. -/
def takenUp (observations : List (MsgCounter × CounterCheck)) : List MsgCounter :=
  (observations.filter fun o => o.2.isAcceptable).map Prod.fst

/-- Everything one observation can do, with the window read as the set of counters it remembers. -/
inductive Observed (tracker : MsgCounterTracker) (value : MsgCounter) :
    MsgCounterTracker → CounterCheck → Prop
  | first (hlast : tracker.last = none) : Observed tracker value ⟨some value, tracker.seen⟩ .ascending
  | forward (last : MsgCounter) (seen : UInt64) (check : CounterCheck)
      (hlast : tracker.last = some last) (hlt : last.toNat < value.toNat)
      (hnear : value.toNat < last.toNat + 64) (hcheck : check.isAcceptable = true)
      (hrestart : check ≠ .restarted)
      (hseen : ∀ n, remembers seen.toBitVec value.toNat n =
        (decide (value.toNat ≤ n + 64) &&
          (remembers tracker.seen.toBitVec last.toNat n || n == last.toNat))) :
      Observed tracker value ⟨some value, seen⟩ check
  | leap (last : MsgCounter) (check : CounterCheck) (hlast : tracker.last = some last)
      (hfar : last.toNat + 64 ≤ value.toNat) (hcheck : check.isAcceptable = true)
      (hrestart : check ≠ .restarted) :
      Observed tracker value ⟨some value, 0⟩ check
  | restarted (last : MsgCounter) (hlast : tracker.last = some last)
      (hfar : value.toNat + 1000 ≤ last.toNat) :
      Observed tracker value ⟨some value, 0⟩ .restarted
  | duplicate (last : MsgCounter) (hlast : tracker.last = some last)
      (hle : value.toNat ≤ last.toNat)
      (hwhy : value = last ∨ value.toNat + 64 < last.toNat ∨
        remembers tracker.seen.toBitVec last.toNat value.toNat = true) :
      Observed tracker value tracker .duplicate
  | reordered (last : MsgCounter) (seen : UInt64) (hlast : tracker.last = some last)
      (hlt : value.toNat < last.toNat) (hnear : last.toNat ≤ value.toNat + 64)
      (hunseen : remembers tracker.seen.toBitVec last.toNat value.toNat = false)
      (hseen : ∀ n, remembers seen.toBitVec last.toNat n =
        (remembers tracker.seen.toBitVec last.toNat n || n == value.toNat)) :
      Observed tracker value ⟨some last, seen⟩ .reordered

theorem toNat_counterWindow : counterWindow.toNat = 64 := rfl

theorem toNat_restartThreshold : restartThreshold.toNat = 1000 := rfl

theorem toBitVec_shiftLeft_of_lt (a : UInt64) {b : UInt64} (h : b.toNat < 64) :
    (a <<< b).toBitVec = a.toBitVec <<< b.toNat := by
  rw [UInt64.toBitVec_shiftLeft, BitVec.shiftLeft_eq']
  congr 1
  simp
  omega

theorem toNat_distance {low high : UInt64} (h : low.toNat ≤ high.toNat) :
    (high - low).toNat = high.toNat - low.toNat :=
  UInt64.toNat_sub_of_le _ _ (UInt64.le_iff_toNat_le.mpr h)

theorem toNat_distance_pred {low high : UInt64} (h : low.toNat < high.toNat) :
    (high - low - 1).toNat = high.toNat - low.toNat - 1 := by
  have hone : (1 : UInt64).toNat ≤ (high - low).toNat := by
    rw [toNat_distance (Nat.le_of_lt h)]
    simp
    omega
  rw [toNat_distance hone, toNat_distance (Nat.le_of_lt h)]
  simp

theorem toBitVec_windowBit {low high : UInt64} (h : low.toNat < high.toNat)
    (hnear : high.toNat ≤ low.toNat + 64) :
    ((1 : UInt64) <<< (high - low - 1)).toBitVec = 1#64 <<< (high.toNat - low.toNat - 1) := by
  have hlt : (high - low - 1).toNat < 64 := by
    rw [toNat_distance_pred h]
    omega
  rw [toBitVec_shiftLeft_of_lt _ hlt, toNat_distance_pred h]
  rfl

theorem remembers_advanced (seen : UInt64) {last : MsgCounter}
    (hlt : last.toNat < value.toNat) (hnear : value.toNat < last.toNat + 64) (n : Nat) :
    remembers ((seen <<< (value - last)) ||| (1 <<< (value - last - 1))).toBitVec value.toNat n =
      (decide (value.toNat ≤ n + 64) && (remembers seen.toBitVec last.toNat n || n == last.toNat)) := by
  have hahead := toNat_distance (Nat.le_of_lt hlt)
  have hkey := remembers_advance seen.toBitVec last.toNat (show 0 < value.toNat - last.toNat by omega)
    (show value.toNat - last.toNat < 64 by omega) n
  rw [show last.toNat + (value.toNat - last.toNat) = value.toNat by omega] at hkey
  rw [UInt64.toBitVec_or, toBitVec_windowBit hlt (by omega),
    toBitVec_shiftLeft_of_lt _ (by omega), hahead, hkey]

theorem remembers_marked (seen : UInt64) {last : MsgCounter}
    (hlt : value.toNat < last.toNat) (hnear : last.toNat ≤ value.toNat + 64) (n : Nat) :
    remembers (seen ||| (1 <<< (last - value - 1))).toBitVec last.toNat n =
      (remembers seen.toBitVec last.toNat n || n == value.toNat) := by
  rw [UInt64.toBitVec_or, toBitVec_windowBit hlt hnear]
  exact remembers_mark seen.toBitVec hlt hnear n

theorem windowBit_set_iff (seen : UInt64) {last : MsgCounter}
    (hlt : value.toNat < last.toNat) (hnear : last.toNat ≤ value.toNat + 64) :
    seen &&& (1 <<< (last - value - 1)) ≠ 0 ↔
      remembers seen.toBitVec last.toNat value.toNat = true := by
  rw [← and_mark_ne_zero_iff seen.toBitVec hlt hnear, ← toBitVec_windowBit hlt hnear,
    ← UInt64.toBitVec_and]
  exact not_congr UInt64.toBitVec_inj.symm

theorem observed_observe (tracker : MsgCounterTracker) (value : MsgCounter) :
    Observed tracker value (tracker.observe value).1 (tracker.observe value).2 := by
  cases hlast : tracker.last with
  | none =>
    simp only [observe, hlast]
    exact .first hlast
  | some last =>
    simp only [observe, hlast]
    split
    case isTrue hgt =>
      have hlt : last.toNat < value.toNat := UInt64.lt_iff_toNat_lt.mp hgt
      have hahead : (value - last).toNat = value.toNat - last.toNat :=
        toNat_distance (Nat.le_of_lt hlt)
      have hcheck : ∀ check : CounterCheck,
          check = (if value - last = 1 then .ascending else .skipped (value - last - 1)) →
          check.isAcceptable = true ∧ check ≠ .restarted := by
        intro check hc
        split at hc <;> simp [hc, CounterCheck.isAcceptable]
      obtain ⟨hacc, hre⟩ := hcheck _ rfl
      by_cases hnear : value - last < counterWindow
      · rw [if_pos hnear]
        have hnear' : value.toNat < last.toNat + 64 := by
          have hlt64 := UInt64.lt_iff_toNat_lt.mp hnear
          rw [hahead, toNat_counterWindow] at hlt64
          omega
        exact .forward last _ _ hlast hlt hnear' hacc hre
          (remembers_advanced tracker.seen hlt hnear')
      · rw [if_neg hnear]
        refine .leap last _ hlast ?_ hacc hre
        have hge64 := mt UInt64.lt_iff_toNat_lt.mpr hnear
        rw [hahead, toNat_counterWindow] at hge64
        omega
    case isFalse hgt =>
      have hle : value.toNat ≤ last.toNat :=
        Nat.le_of_not_lt fun h => hgt (UInt64.lt_iff_toNat_lt.mpr h)
      have hbehind : (last - value).toNat = last.toNat - value.toNat := toNat_distance hle
      split
      case isTrue hfar =>
        refine .restarted last hlast ?_
        have hge := UInt64.le_iff_toNat_le.mp hfar
        rw [hbehind, toNat_restartThreshold] at hge
        omega
      case isFalse hfar =>
        by_cases hedge : last - value = 0 ∨ last - value > counterWindow
        · rw [if_pos (by simpa using hedge)]
          refine .duplicate last hlast hle ?_
          rcases hedge with hzero | hpast
          · refine .inl (UInt64.toNat.inj ?_)
            rw [hzero] at hbehind
            simp at hbehind
            omega
          · refine .inr (.inl ?_)
            have hgt64 := UInt64.lt_iff_toNat_lt.mp hpast
            rw [hbehind, toNat_counterWindow] at hgt64
            omega
        · rw [if_neg (by simpa using hedge)]
          rw [not_or] at hedge
          have hpos : last.toNat - value.toNat ≠ 0 := by
            rw [← hbehind]
            exact fun h => hedge.1 (UInt64.toNat.inj h)
          have hlt : value.toNat < last.toNat := by omega
          have hnear : last.toNat ≤ value.toNat + 64 := by
            have hle64 := mt UInt64.lt_iff_toNat_lt.mpr hedge.2
            rw [hbehind, toNat_counterWindow] at hle64
            omega
          by_cases hbit : tracker.seen &&& (1 <<< (last - value - 1)) ≠ 0
          · rw [if_pos hbit]
            exact .duplicate last hlast hle
              (.inr (.inr ((windowBit_set_iff tracker.seen hlt hnear).mp hbit)))
          · rw [if_neg hbit]
            have hunseen := mt (windowBit_set_iff tracker.seen hlt hnear).mpr hbit
            exact .reordered last _ hlast hlt hnear (by simpa using hunseen)
              (remembers_marked tracker.seen hlt hnear)

/-- What the tracker says of the counters taken up: its last one is the highest of them, and each
bit stands for one of them. -/
structure Records (tracker : MsgCounterTracker) (taken : List MsgCounter) : Prop where
  fresh : tracker.last = none → tracker = new ∧ taken = []
  top : ∀ last, tracker.last = some last → last ∈ taken ∧ ∀ value ∈ taken, value ≤ last
  sound : ∀ last value, tracker.last = some last →
    remembers tracker.seen.toBitVec last.toNat value.toNat = true → value ∈ taken

def Complete (tracker : MsgCounterTracker) (taken : List MsgCounter) : Prop :=
  ∀ last, tracker.last = some last → ∀ value ∈ taken, value < last →
    last.toNat ≤ value.toNat + counterWindow.toNat →
    remembers tracker.seen.toBitVec last.toNat value.toNat = true

/-- The counter is not exactly one window ahead of the highest one. -/
def NotWindowAhead (tracker : MsgCounterTracker) (value : MsgCounter) : Prop :=
  ∀ last, tracker.last = some last → value.toNat ≠ last.toNat + counterWindow.toNat

instance (tracker : MsgCounterTracker) (value : MsgCounter) :
    Decidable (tracker.NotWindowAhead value) :=
  decidable_of_iff (tracker.last.all fun last =>
      decide (value.toNat ≠ last.toNat + counterWindow.toNat) = true) (by
    cases h : tracker.last with
    | none => simp [NotWindowAhead, h]
    | some last => simp [NotWindowAhead, h])

def takeUp (taken : List MsgCounter) (value : MsgCounter) (check : CounterCheck) : List MsgCounter :=
  if check = .restarted then [value]
  else if check.isAcceptable then value :: taken
  else taken

theorem takenUp_sinceRestart_cons (e : Event MsgCounterTracker MsgCounter CounterCheck)
    (past : List (Event MsgCounterTracker MsgCounter CounterCheck)) :
    takenUp (sinceRestart (e :: past)) = takeUp (takenUp (sinceRestart past)) e.input e.output := by
  by_cases hre : e.output = .restarted
  · simp [sinceRestart, takenUp, takeUp, hre, CounterCheck.isAcceptable]
  · by_cases hacc : e.output.isAcceptable = true
    · simp [sinceRestart, takenUp, takeUp, hre, hacc]
    · simp [sinceRestart, takenUp, takeUp, hre, hacc]

theorem takeUp_acceptable {check : CounterCheck}
    (hcheck : check.isAcceptable = true) (hrestart : check ≠ .restarted) :
    takeUp taken value check = value :: taken := by
  rw [takeUp, if_neg hrestart, if_pos hcheck]

theorem le_of_mem_cons {last : MsgCounter} (hmax : ∀ w ∈ taken, w ≤ last)
    (hlast : last.toNat ≤ value.toNat) : ∀ w ∈ value :: taken, w ≤ value := by
  intro w hw
  cases List.mem_cons.mp hw with
  | inl heq => exact heq ▸ UInt64.le_refl _
  | inr hw => exact UInt64.le_trans (hmax w hw) (UInt64.le_iff_toNat_le.mpr hlast)

theorem mem_of_mem_cons_of_lt {w : MsgCounter} (hw : w ∈ value :: taken)
    (hlt : w < value) : w ∈ taken := by
  cases List.mem_cons.mp hw with
  | inl heq => exact absurd (heq ▸ hlt) (UInt64.lt_irrefl _)
  | inr hw => exact hw

theorem Records.observe (h : Records tracker taken) (value : MsgCounter) :
    Records (tracker.observe value).1 (takeUp taken value (tracker.observe value).2) := by
  have hobserved := observed_observe tracker value
  generalize (tracker.observe value).1 = tracker' at hobserved ⊢
  generalize (tracker.observe value).2 = check' at hobserved ⊢
  cases hobserved with
  | first hlast =>
    obtain ⟨rfl, rfl⟩ := h.fresh hlast
    refine ⟨by simp, fun last hl => ?_, fun last n hl hmem => ?_⟩
    · cases hl
      simp [takeUp, CounterCheck.isAcceptable]
    · change remembers 0#64 _ _ = true at hmem
      simp at hmem
  | forward last seen check hlast hlt hnear hcheck hrestart hseen =>
    obtain ⟨hin, hmax⟩ := h.top last hlast
    rw [takeUp_acceptable hcheck hrestart]
    refine ⟨by simp, fun top htop => ?_, fun top n htop hmem => ?_⟩
    · cases htop
      exact ⟨List.mem_cons_self, le_of_mem_cons hmax (Nat.le_of_lt hlt)⟩
    · cases htop
      rw [hseen] at hmem
      simp only [Bool.and_eq_true, Bool.or_eq_true, beq_iff_eq] at hmem
      rcases hmem.2 with hold | heq
      · exact List.mem_cons_of_mem _ (h.sound last n hlast hold)
      · rw [UInt64.toNat.inj heq]
        exact List.mem_cons_of_mem _ hin
  | leap last check hlast hfar hcheck hrestart =>
    obtain ⟨-, hmax⟩ := h.top last hlast
    rw [takeUp_acceptable hcheck hrestart]
    refine ⟨by simp, fun top htop => ?_, fun top n htop hmem => ?_⟩
    · cases htop
      exact ⟨List.mem_cons_self, le_of_mem_cons hmax (by omega)⟩
    · change remembers 0#64 _ _ = true at hmem
      simp at hmem
  | restarted last hlast hfar =>
    refine ⟨by simp, fun top htop => ?_, fun top n htop hmem => ?_⟩
    · cases htop
      simp [takeUp]
    · change remembers 0#64 _ _ = true at hmem
      simp at hmem
  | duplicate last hlast hle hwhy => exact h
  | reordered last seen hlast hlt hnear hunseen hseen =>
    obtain ⟨hin, hmax⟩ := h.top last hlast
    rw [takeUp_acceptable rfl (by simp)]
    refine ⟨by simp, fun top htop => ?_, fun top n htop hmem => ?_⟩
    · cases htop
      refine ⟨List.mem_cons_of_mem _ hin, fun w hw => ?_⟩
      rcases List.mem_cons.mp hw with rfl | hw
      · exact UInt64.le_iff_toNat_le.mpr (Nat.le_of_lt hlt)
      · exact hmax w hw
    · cases htop
      rw [hseen] at hmem
      simp only [Bool.or_eq_true, beq_iff_eq] at hmem
      rcases hmem with hold | heq
      · exact List.mem_cons_of_mem _ (h.sound last n hlast hold)
      · rw [UInt64.toNat.inj heq]
        exact List.mem_cons_self

theorem Complete.observe (h : Records tracker taken) (hall : Complete tracker taken)
    (hstep : tracker.NotWindowAhead value) :
    Complete (tracker.observe value).1 (takeUp taken value (tracker.observe value).2) := by
  have hobserved := observed_observe tracker value
  generalize (tracker.observe value).1 = tracker' at hobserved ⊢
  generalize (tracker.observe value).2 = check' at hobserved ⊢
  cases hobserved with
  | first hlast =>
    obtain ⟨rfl, rfl⟩ := h.fresh hlast
    intro last hl w hw hlt
    cases hl
    simp only [takeUp, CounterCheck.isAcceptable] at hw
    simp at hw
    exact absurd hlt (by simp [hw])
  | forward last seen check hlast hlt hnear hcheck hrestart hseen =>
    rw [takeUp_acceptable hcheck hrestart]
    intro top htop w hw hwlt hwnear
    cases htop
    rw [toNat_counterWindow] at hwnear
    have hwold := mem_of_mem_cons_of_lt hw hwlt
    have hwle := UInt64.le_iff_toNat_le.mp ((h.top last hlast).2 w hwold)
    rw [hseen]
    simp only [Bool.and_eq_true, decide_eq_true_eq, Bool.or_eq_true, beq_iff_eq]
    refine ⟨hwnear, ?_⟩
    rcases Nat.eq_or_lt_of_le hwle with heq | hlow
    · exact .inr heq
    · refine .inl (hall last hlast w hwold (UInt64.lt_iff_toNat_lt.mpr hlow) ?_)
      rw [toNat_counterWindow]
      omega
  | leap last check hlast hfar hcheck hrestart =>
    rw [takeUp_acceptable hcheck hrestart]
    intro top htop w hw hwlt hwnear
    cases htop
    rw [toNat_counterWindow] at hwnear
    have hwold := mem_of_mem_cons_of_lt hw hwlt
    have hwle := UInt64.le_iff_toNat_le.mp ((h.top last hlast).2 w hwold)
    have hne := hstep last hlast
    rw [toNat_counterWindow] at hne
    omega
  | restarted last hlast hfar =>
    intro top htop w hw hwlt
    cases htop
    simp only [takeUp] at hw
    simp at hw
    exact absurd hwlt (by simp [hw])
  | duplicate last hlast hle hwhy => exact hall
  | reordered last seen hlast hlt hnear hunseen hseen =>
    rw [takeUp_acceptable rfl (by simp)]
    intro top htop w hw hwlt hwnear
    cases htop
    rw [hseen, Bool.or_eq_true, beq_iff_eq]
    rcases List.mem_cons.mp hw with rfl | hw
    · exact .inr rfl
    · exact .inl (hall last hlast w hw hwlt hwnear)

theorem records_new : Records new [] :=
  ⟨fun _ => ⟨rfl, rfl⟩, fun _ h => by simp [new] at h, fun _ _ h => by simp [new] at h⟩

theorem Records.not_again (h : Records tracker taken) (hall : Complete tracker taken)
    (hcheck : (tracker.observe value).2.isAcceptable = true)
    (hrestart : (tracker.observe value).2 ≠ .restarted) : value ∉ taken := by
  intro hin
  have hobserved := observed_observe tracker value
  generalize (tracker.observe value).1 = tracker' at hobserved
  generalize (tracker.observe value).2 = check' at hobserved hcheck hrestart
  cases hobserved with
  | first hlast =>
    rw [(h.fresh hlast).2] at hin
    simp at hin
  | forward last seen check hlast hlt =>
    have hle := UInt64.le_iff_toNat_le.mp ((h.top last hlast).2 value hin)
    omega
  | leap last check hlast hfar =>
    have hle := UInt64.le_iff_toNat_le.mp ((h.top last hlast).2 value hin)
    omega
  | restarted => exact hrestart rfl
  | duplicate => simp [CounterCheck.isAcceptable] at hcheck
  | reordered last seen hlast hlt hnear hunseen =>
    have hmem := hall last hlast value hin (UInt64.lt_iff_toNat_lt.mpr hlt) hnear
    rw [hunseen] at hmem
    simp at hmem

theorem Records.not_refused (h : Records tracker taken) {top : MsgCounter} (htop : top ∈ taken)
    (hmax : ∀ w ∈ taken, w ≤ top) (hnear : top.toNat ≤ value.toNat + counterWindow.toNat)
    (hnew : value ∉ taken) : (tracker.observe value).2.isAcceptable = true := by
  have hobserved := observed_observe tracker value
  generalize (tracker.observe value).1 = tracker' at hobserved
  generalize (tracker.observe value).2 = check' at hobserved
  cases hobserved with
  | first | restarted | reordered => rfl
  | forward last seen check hlast hlt hn hcheck => exact hcheck
  | leap last check hlast hfar hcheck => exact hcheck
  | duplicate last hlast hle hwhy =>
    obtain ⟨hin, hbelow⟩ := h.top last hlast
    have heq : last = top := UInt64.le_antisymm (hmax last hin) (hbelow top htop)
    subst heq
    rw [toNat_counterWindow] at hnear
    rcases hwhy with rfl | hpast | hmem
    · exact absurd hin hnew
    · omega
    · exact absurd (h.sound last value hlast hmem) hnew

/-- In every run without a jump of exactly the window's width, a counter taken up since the last
restart is not taken up again; and a counter not observed since then is taken up whenever it is at
most a window below the highest one. -/
theorem counters_taken_up_once (counters : List MsgCounter)
    (hrun : machine.Admits NotWindowAhead new counters) :
    ∀ e past, e :: past <:+ (machine.recorded.run (new, []) counters).2 →
      (e.output.isAcceptable = true → e.output ≠ .restarted →
        e.input ∉ takenUp (sinceRestart past)) ∧
      (∀ top ∈ takenUp (sinceRestart past), (∀ value ∈ takenUp (sinceRestart past), value ≤ top) →
        top.toNat ≤ e.input.toNat + 64 → e.input ∉ (sinceRestart past).map Prod.fst →
        e.output.isAcceptable = true) := by
  let Inv : MsgCounterTracker × List (Event MsgCounterTracker MsgCounter CounterCheck) → Prop :=
    fun p => Records p.1 (takenUp (sinceRestart p.2)) ∧ Complete p.1 (takenUp (sinceRestart p.2))
  have hstep : ∀ p value, Inv p → NotWindowAhead p.1 value → Inv (machine.recorded.next p value) := by
    intro p value hp hok
    refine ⟨?_, ?_⟩
    · change Records _ (takenUp (sinceRestart (_ :: p.2)))
      rw [takenUp_sinceRestart_cons]
      exact hp.1.observe value
    · change Complete _ (takenUp (sinceRestart (_ :: p.2)))
      rw [takenUp_sinceRestart_cons]
      exact Complete.observe hp.1 hp.2 hok
  have hinit : Inv (new, []) := ⟨records_new, fun last h => by simp [new] at h⟩
  refine machine.recorded_run_events hstep (fun tracker past value hp hok => ⟨?_, ?_⟩) hinit
    ((machine.admits_recorded counters new []).mpr hrun)
  · intro hcheck hrestart
    exact hp.1.not_again hp.2 hcheck hrestart
  · intro top htop hmax hnear hnew
    refine hp.1.not_refused htop hmax hnear fun hin => hnew ?_
    obtain ⟨o, ho, hfst⟩ := List.mem_map.mp hin
    exact List.mem_map.mpr ⟨o, (List.mem_filter.mp ho).1, hfst⟩

theorem counters_taken_up_once_overtaken :
    machine.Admits NotWindowAhead new [1, 9, 11, 10, 10, 74] ∧
      (machine.recorded.run (new, []) [1, 9, 11, 10, 10, 74]).2.map Event.output =
        [.skipped 62, .duplicate, .reordered, .skipped 1, .skipped 7, .ascending] ∧
      ∀ e past, e :: past <:+ (machine.recorded.run (new, []) [1, 9, 11, 10, 10, 74]).2 →
        e.output.isAcceptable = true → e.output ≠ .restarted →
        e.input ∉ takenUp (sinceRestart past) :=
  ⟨by decide, by decide, fun e past h =>
    (counters_taken_up_once [1, 9, 11, 10, 10, 74] (by decide) e past h).1⟩

/-- The counter a jump of exactly 64 leaves behind is taken up a second time. -/
theorem window_jump_replays :
    ∃ e past, e :: past <:+ (machine.recorded.run (new, []) [1, 65, 1]).2 ∧
      e.output.isAcceptable = true ∧ e.output ≠ .restarted ∧
      e.input ∈ takenUp (sinceRestart past) :=
  ⟨_, _, List.suffix_refl _, by decide, by decide, by decide⟩

end MsgCounterTracker

end Eebus.Spine
