import Eebus.Runtime.Redial

/-!
How often a peer is dialled: no sooner than its backoff allows, whatever the hub is told in between, and
once at a time. A dial that reaches this node itself is no failure that is counted.
-/

namespace Eebus.Runtime

open Eebus.Library Eebus.Ship

variable {before last n start : Nat}

namespace Schedule

variable {h h' : Schedule} {resets removes : Ski → Prop} {peer : Ski}

def dialsOf (h : Schedule) (peer : Ski) : Nat := h.dials.countP fun d => d.1 == peer

/-- Milliseconds that pass at least while a peer is dialled once more after so many dials. -/
def spent : Nat → Nat
  | 0 => 0
  | n + 1 => spent n + shortestDelay (n + 1)

/-- What keeps a peer from being dialled again that has been dialled `n` times, the last time at `last`:
the dial is running, or the next one is not due. -/
def Waits (n last : Nat) (k : Known) : Prop :=
  (k.dialing = true ∧ min (n - 1) 7 ≤ k.attempts) ∨
    (min n 7 ≤ k.attempts ∧ last + fromMillis (shortestDelay n) ≤ k.nextAttempt)

/-- Since `start` a peer has been dialled `n` times more than before, at its pace. -/
structure Paced (peer : Ski) (start before n last : Nat) (h : Schedule) : Prop where
  dials : h.dialsOf peer = before + n
  began : start ≤ h.clock
  past : 0 < n → last ≤ h.clock ∧ start + fromMillis (spent (n - 1)) ≤ last
  waits : 0 < n → ∀ k ∈ h.known, k.ski = peer → Waits n last k

theorem shortestDelay_min (n : Nat) : shortestDelay (min n 7) = shortestDelay n := by
  simp only [shortestDelay, reconnectDelay, min_assoc, min_self]

theorem shortestDelay_mono {m : Nat} (hle : m ≤ n) : shortestDelay m ≤ shortestDelay n :=
  Nat.mul_le_mul_right _ (reconnectDelay_mono hle)

theorem Waits.attempts {k : Known} (hw : Waits n last k) : min (n - 1) 7 ≤ k.attempts := by
  rcases hw with ⟨-, hw⟩ | ⟨hw, -⟩ <;> omega

theorem waits_deferred {clock : Nat} {k k' : Known} (hattempts : min (n - 1) 7 ≤ k.attempts)
    (hlast : last ≤ clock) (hcounted : k'.attempts = min (k.attempts + 1) (2 ^ 32 - 1))
    (hnext : k'.nextAttempt = clock + fromMillis (reconnectDelayFor k.ski k'.attempts)) : Waits n last k' := by
  have hmore : min n 7 ≤ k'.attempts := by omega
  have hdelay := (reconnectDelayFor_bounds k.ski k'.attempts).1
  have hmono := shortestDelay_mono hmore
  rw [shortestDelay_min] at hmono
  refine .inr ⟨hmore, ?_⟩
  rw [hnext]
  simp only [fromMillis]
  omega

theorem Paced.of_waits (hp : Paced peer start before n last h)
    (hdials : h'.dials = h.dials) (hclock : h.clock ≤ h'.clock)
    (hwaits : 0 < n → ∀ k ∈ h'.known, k.ski = peer → Waits n last k) : Paced peer start before n last h' where
  dials := by
    rw [dialsOf, hdials]
    exact hp.dials
  began := hp.began.trans hclock
  past hn := ⟨(hp.past hn).1.trans hclock, (hp.past hn).2⟩
  waits := hwaits

theorem Paced.update (hk : h.Kept) (hp : Paced peer start before n last h) (ski : Ski)
    (change : Known → Known) (hski : ∀ k, (change k).ski = k.ski)
    (hchange : ski = peer → ∀ k, 0 < n → last ≤ h.clock → Waits n last k → Waits n last (change k)) :
    Paced peer start before n last { h with known := updateKnown ski change h.known } := by
  refine hp.of_waits rfl le_rfl fun hn => forall_mem_updateKnown hk.distinct
    (fun k hmem _ => hp.waits hn k hmem) fun k hmem hself hpeer => ?_
  rw [hski] at hpeer
  exact hchange (hself.symm.trans hpeer) k hn (hp.past hn).1 (hp.waits hn k hmem hpeer)

theorem Paced.deferRedial (hk : h.Kept) (hp : Paced peer start before n last h)
    (ski : Ski) : Paced peer start before n last (h.deferRedial ski) :=
  hp.update hk ski _ (fun _ => rfl) fun _ _ _ hlast hw => waits_deferred hw.attempts hlast rfl rfl

theorem Paced.finish (hk : h.Kept) (hp : Paced peer start before n last h)
    (reception : Reception) {id : Nat} (hother : h.expected[id]?.join ≠ some peer) :
    Paced peer start before n last (h.finish reception id) := by
  rw [Schedule.finish]
  cases hexpected : h.expected[id]?.join with
  | none => exact hp.of_waits rfl le_rfl hp.waits
  | some ski =>
    have hne : ski ≠ peer := fun heq => hother (by rw [hexpected, heq])
    have hcleared := hp.update hk ski (fun k => { k with dialing := false }) (fun _ => rfl)
      fun heq => absurd heq hne
    exact hcleared.of_waits rfl le_rfl hcleared.waits

theorem Paced.finishDeferred (hk : h.Kept) (hp : Paced peer start before n last h)
    {reception : Reception} {id : Nat} (hreception : h.reception.Ends reception id) :
    Paced peer start before n last ((h.finish reception id).deferExpected h.expected[id]?.join) := by
  have hfinish := hk.finish hreception
  cases hexpected : h.expected[id]?.join with
  | none => exact hp.finish hk reception (by simp [hexpected])
  | some ski =>
    by_cases hpeer : ski = peer
    · have hattempts : ∀ k ∈ (h.finish reception id).known, 0 < n → k.ski = peer → min (n - 1) 7 ≤ k.attempts := by
        rw [Schedule.finish, hexpected]
        exact forall_mem_updateKnown hk.distinct (fun k hmem _ hn hself => (hp.waits hn k hmem hself).attempts)
          fun k hmem _ hn hself => (hp.waits hn k hmem hself).attempts
      have hsame : (h.finish reception id).dials = h.dials ∧ (h.finish reception id).clock = h.clock := by
        rw [Schedule.finish, hexpected]
        exact ⟨rfl, rfl⟩
      refine hp.of_waits hsame.1 hsame.2.ge fun hn => forall_mem_updateKnown hfinish.distinct
        (fun k _ hne hself => absurd (hself.trans hpeer.symm) hne) fun k hmem _ hself => ?_
      have hlast : last ≤ (h.finish reception id).clock := (hp.past hn).1.trans hsame.2.ge
      generalize (h.finish reception id).clock = clock at hlast
      exact waits_deferred (hattempts k hmem hn hself) hlast rfl rfl
    · exact (hp.finish hk reception (by simpa [hexpected] using hpeer)).deferRedial hfinish ski

theorem Paced.dialed (hk : h.Kept) (hp : Paced peer start before n last h)
    {reception : Reception} {ski : Ski}
    (hdue : ∃ k ∈ h.known, k.ski = peer ∧ k.dialing = false ∧ k.nextAttempt ≤ h.clock) (heq : ski = peer) :
    Paced peer start before (n + 1) h.clock { h with
      reception
      expected := h.expected ++ [some ski]
      dials := h.dials ++ [(ski, h.clock)]
      known := updateKnown ski (fun k => { k with dialing := true }) h.known } := by
  obtain ⟨k, hmem, hself, hidle, hnext⟩ := hdue
  have hdue : 0 < n → min n 7 ≤ k.attempts ∧ last + fromMillis (shortestDelay n) ≤ h.clock := by
    intro hn
    rcases hp.waits hn k hmem hself with ⟨hdialing, -⟩ | ⟨hattempts, hwaits⟩
    · rw [hidle] at hdialing
      cases hdialing
    · exact ⟨hattempts, hwaits.trans hnext⟩
  constructor
  case dials =>
    have hcount : h.dialsOf peer = before + n := hp.dials
    rw [dialsOf, List.countP_append, List.countP_singleton, if_pos (by simpa using heq)]
    rw [dialsOf] at hcount
    omega
  case began => exact hp.began
  case past =>
    refine fun _ => ⟨le_rfl, ?_⟩
    cases n with
    | zero => exact hp.began
    | succ m =>
      obtain ⟨-, hpaced⟩ := hp.past (Nat.succ_pos m)
      have hlast := (hdue (Nat.succ_pos m)).2
      have hmore : fromMillis (spent (m + 1)) = fromMillis (spent m) + fromMillis (shortestDelay (m + 1)) :=
        Nat.add_mul _ _ _
      rw [Nat.add_sub_cancel] at hpaced ⊢
      rw [hmore, ← Nat.add_assoc]
      exact (Nat.add_le_add_right hpaced _).trans hlast
  case waits =>
    refine fun _ => forall_mem_updateKnown hk.distinct (fun other _ hne hother => absurd (hother.trans heq.symm) hne)
      fun other hother hski _ => .inl ⟨rfl, ?_⟩
    obtain rfl : other = k := List.inj_on_of_nodup_map hk.distinct hother hmem (by rw [hski, heq, hself])
    rw [Nat.add_sub_cancel]
    rcases Nat.eq_zero_or_pos n with rfl | hn
    · exact Nat.zero_le _
    · exact (hdue hn).1

theorem Paced.move (hk : h.Kept) (hp : Paced peer start before n last h)
    (hreset : ¬ resets peer) (hmove : Move resets removes h h') :
    ∃ n' last', Paced peer start before n' last' h' := by
  cases hmove with
  | wait clock store ownInstance hclock => exact ⟨n, last, hp.of_waits rfl hclock hp.waits⟩
  | continues reception hreception => exact ⟨n, last, hp.of_waits rfl le_rfl hp.waits⟩
  | spawns reception hreception => exact ⟨n, last, hp.of_waits rfl le_rfl hp.waits⟩
  | dials reception hreception ski hdue =>
    by_cases heq : ski = peer
    · exact ⟨n + 1, h.clock, hp.dialed hk (heq ▸ hdue) heq⟩
    · have hmarked := hp.update hk ski (fun k => { k with dialing := true }) (fun _ => rfl) fun h => absurd h heq
      refine ⟨n, last, ?_, hmarked.began, hmarked.past, hmarked.waits⟩
      rw [dialsOf, List.countP_append, List.countP_singleton, if_neg (by simpa using heq)]
      exact hmarked.dials
  | ends reception id hreception hresets =>
    exact ⟨n, last, hp.finish hk reception fun hexpected => hreset (hresets peer hexpected)⟩
  | endsDeferred reception id hreception => exact ⟨n, last, hp.finishDeferred hk hreception⟩
  | deferred ski => exact ⟨n, last, hp.deferRedial hk ski⟩
  | restarts ski address hresets =>
    exact ⟨n, last, hp.update hk ski _ (fun _ => rfl) fun heq => absurd (heq ▸ hresets) hreset⟩
  | adds k hresets hown hnew hdialing =>
    refine ⟨n, last, hp.of_waits rfl le_rfl fun hn other hmem hpeer => ?_⟩
    rcases List.mem_append.mp hmem with hold | hlast
    · exact hp.waits hn other hold hpeer
    · rw [List.mem_singleton.mp hlast] at hpeer
      exact absurd (hpeer ▸ hresets) hreset
  | names ski instance_ => exact ⟨n, last, hp.update hk ski _ (fun _ => rfl) fun _ _ _ _ hw => hw⟩
  | forgets known hsub hremove =>
    exact ⟨n, last, hp.of_waits rfl le_rfl fun hn k hmem => hp.waits hn k (hsub.mem hmem)⟩
  | sights sightings hnodup hown hbound => exact ⟨n, last, hp.of_waits rfl le_rfl hp.waits⟩

theorem Paced.moves (hk : h.Kept) (hp : Paced peer start before n last h)
    (hreset : ¬ resets peer) (hmoves : Relation.ReflTransGen (Move resets removes) h h') :
    ∃ n' last', Paced peer start before n' last' h' := by
  induction hmoves with
  | refl => exact ⟨n, last, hp⟩
  | tail hbefore hmove ih =>
    obtain ⟨n', last', hp'⟩ := ih
    exact hp'.move (hk.moves hbefore) hreset hmove

theorem paced_run (ops : List ScheduleOp) (hk : h.Kept)
    (hquiet : machine.Admits (fun h op => ¬ h.Resets op peer) h ops) :
    ∃ n last, Paced peer h.clock (h.dialsOf peer) n last (machine.run h ops) := by
  have hstart : Paced peer h.clock (h.dialsOf peer) 0 0 h :=
    ⟨rfl, le_rfl, fun hn => absurd hn (lt_irrefl _), fun hn => absurd hn (lt_irrefl _)⟩
  have hrun := machine.run_invariant (fun h op => ¬ h.Resets op peer)
    (fun h' => h'.Kept ∧ ∃ n last, Paced peer h.clock (h.dialsOf peer) n last h')
    (fun h' op hinv hreset => by
      obtain ⟨hk', n, last, hp⟩ := hinv
      exact ⟨hk'.perform op, hp.moves hk' hreset (perform_moves hk' op)⟩) ops h ⟨hk, 0, 0, hstart⟩ hquiet
  exact hrun.2

theorem le_spent (n : Nat) : 90000 * n ≤ spent (n + 6) := by
  induction n with
  | zero => exact Nat.zero_le _
  | succ n ih =>
    have hcap : shortestDelay 7 = 90000 := rfl
    have hlong : shortestDelay 7 ≤ shortestDelay (n + 6 + 1) := shortestDelay_mono (by omega)
    rw [show n + 1 + 6 = n + 6 + 1 by omega, spent]
    omega

end Schedule

/-- While neither the application nor the network names a peer again, and neither the peer nor this node
answers where it is looked for, it is dialled at its pace: the delays of all dials but the last pass, which
makes at most seven dials and one in every minute and a half. -/
theorem redials_paced (ski peer : Ski) (maxConnections : Nat) (store : TrustStore)
    (earlier ops : List ScheduleOp)
    (hquiet : Schedule.machine.Admits (fun h op => ¬ h.Resets op peer)
      (Schedule.machine.run (.new ski maxConnections store) earlier) ops) :
    let h := Schedule.machine.run (.new ski maxConnections store) earlier
    let h' := Schedule.machine.run h ops
    ∃ n, h'.dialsOf peer = h.dialsOf peer + n ∧ h.clock + fromMillis (Schedule.spent (n - 1)) ≤ h'.clock ∧
      n ≤ 7 + (h'.clock - h.clock) / fromMillis 90000 := by
  intro h h'
  obtain ⟨n, last, hp⟩ := Schedule.paced_run ops (Schedule.kept_run ski maxConnections store earlier).1 hquiet
  have hspent : h.clock + fromMillis (Schedule.spent (n - 1)) ≤ h'.clock := by
    cases n with
    | zero => exact hp.began
    | succ m => exact (hp.past (Nat.succ_pos m)).2.trans (hp.past (Nat.succ_pos m)).1
  refine ⟨n, hp.dials, hspent, ?_⟩
  by_cases hfew : n ≤ 7
  · exact hfew.trans (Nat.le_add_right _ _)
  · have hle := Schedule.le_spent (n - 7)
    rw [show n - 7 + 6 = n - 1 by omega] at hle
    have hmillis : fromMillis 90000 * (n - 7) ≤ h'.clock - h.clock := by
      have hmul : fromMillis 90000 * (n - 7) = fromMillis (90000 * (n - 7)) := Nat.mul_right_comm _ _ _
      have hmono : fromMillis (90000 * (n - 7)) ≤ fromMillis (Schedule.spent (n - 1)) := Nat.mul_le_mul_right _ hle
      rw [hmul]
      omega
    have hdiv := (Nat.le_div_iff_mul_le (by decide : 0 < fromMillis 90000)).mpr ((Nat.mul_comm _ _).trans_le hmillis)
    omega

/-- A peer that does not answer is dialled, and again after its backoff, and not before. -/
theorem redials_paced_three :
    let h := Schedule.machine.run (.new 0 16 .empty) [.remember 1 ⟨1, 1⟩]
    let h' := Schedule.machine.run h [.redial, .failed 0 none (.handshake "timeout"), .redial,
      .advance (fromMillis 3000), .redial]
    ∃ n, h'.dialsOf 1 = h.dialsOf 1 + n ∧ h.clock + fromMillis (Schedule.spent (n - 1)) ≤ h'.clock ∧
      n ≤ 7 + (h'.clock - h.clock) / fromMillis 90000 :=
  redials_paced 0 1 16 .empty _ _ (by simp [Machine.Admits, Schedule.Resets])

namespace Schedule

variable {own peer : Ski} {maxConnections k : Nat} {address : SocketAddr} {h : Schedule}

/-- A peer is remembered, and whenever the loop dials it, this node itself answers there. -/
def selfAnswered (own peer : Ski) (address : SocketAddr) (n : Nat) : List ScheduleOp :=
  .remember peer address :: (List.range n).flatMap fun id => [.redial, .established id own]

def selfFound (own : Ski) (address : SocketAddr) (id : Nat) : Option Nat × ReceptionEvent :=
  (some id, .handshakeFailed (.dialed address) (some own) .selfConnection)

/-- So many dials have found this node behind the peer's address, and no time has passed. -/
structure Fooled (own peer : Ski) (maxConnections : Nat) (address : SocketAddr) (k : Nat) (h : Schedule) :
    Prop where
  known : h.known = [⟨peer, address, none, 0, 0, false⟩]
  sightings : h.sightings = []
  clock : h.clock = 0
  ski : h.reception.ski = own
  limit : h.reception.maxConnections = maxConnections
  links : h.reception.links = []
  dialed : h.reception.inFlightDialed = 0
  accepted : h.reception.inFlightAccepted = 0
  aligned : h.expected.length = h.reception.attempts.length
  attempts : h.reception.attempts.length = k
  told : h.reception.pending = (List.range k).map (selfFound own address)
  dials : h.dials = List.replicate k (peer, 0)

theorem Fooled.hasRoom (hf : Fooled own peer maxConnections address k h) (hmax : 0 < maxConnections) :
    h.reception.hasRoomFor (.dialed address) = true := by
  have hfree : ¬ maxConnections ≤ 0 := by omega
  simp only [Reception.hasRoomFor, Reception.held, Reception.inFlight, ConnectionOrigin.isDialed, hf.links,
    hf.limit, hf.dialed, hf.accepted]
  simp
  omega

theorem Fooled.again (hf : Fooled own peer maxConnections address k h) (hne : peer ≠ own)
    (hmax : 0 < maxConnections) : Fooled own peer maxConnections address (k + 1)
      (machine.run h [.redial, .established h.reception.attempts.length own]) := by
  obtain ⟨h1, hh1⟩ : ∃ h1, h1 = h.redial := ⟨_, rfl⟩
  have hredial : h1 = { h with
      reception := h.reception.spawnDial address (some peer)
      expected := h.expected ++ [some peer]
      dials := h.dials ++ [(peer, 0)]
      known := [⟨peer, address, none, 0, 0, true⟩] } := by
    rw [hh1]
    simp [redial, spawnDial, hf.hasRoom hmax, hf.known, hf.clock, linked, hf.links, updateKnown,
      modifyFirst]
  obtain ⟨r, hr⟩ : ∃ r, r = h.reception.spawnDial address (some peer) := ⟨_, rfl⟩
  have hspawn : r = { h.reception with
      attempts := h.reception.attempts ++ [Attempt.mk (.dialed address) .started]
      inFlightDialed := 1 } := by
    rw [hr]
    simp [Reception.spawnDial, hf.hasRoom hmax, Reception.spawn, ConnectionOrigin.isDialed, hf.dialed]
  have hself : ∀ r' : Reception, r'.ski = own →
      r'.adoptFrom own (.dialed address) (some h.reception.attempts.length) = (r', some .selfConnection) := by
    intro r' hown
    simp [Reception.adoptFrom, hown]
  have hski : r.ski = own := by rw [hspawn]; exact hf.ski
  have hlooked : (h.expected ++ [some peer])[h.reception.attempts.length]?.join = some peer := by
    rw [← hf.aligned, List.getElem?_concat_length]
    rfl
  have hstarted : r.attempts[h.reception.attempts.length]? = some (Attempt.mk (.dialed address) .started) := by
    rw [hspawn, List.getElem?_concat_length]
  have hrun : machine.run h [.redial, .established h.reception.attempts.length own] =
      h1.perform (.established h.reception.attempts.length own) := by
    rw [hh1]
    rfl
  have hended : h1.perform (.established h.reception.attempts.length own) = { h1 with
      reception := r.established h.reception.attempts.length (.dialed address) own
      expected := (h.expected ++ [some peer]).set h.reception.attempts.length none
      known := [⟨peer, address, none, 0, 0, false⟩] } := by
    rw [hredial, ← hr]
    simp only [perform, hstarted, established, hlooked, hself r hski, dialEnded]
    simp [updateKnown, modifyFirst, hne, hf.sightings]
  have hafter : r.established h.reception.attempts.length (.dialed address) own =
      { h.reception with
        attempts := (h.reception.attempts ++ [Attempt.mk (.dialed address) .started]).modify
          h.reception.attempts.length fun a => { a with stage := .finished }
        inFlightDialed := 0
        awaitingTrust := h.reception.awaitingTrust.filter fun entry => entry.1 != .dialed address
        pending := h.reception.pending ++ [(some h.reception.attempts.length,
          .handshakeFailed (.dialed address) (some own) .selfConnection)] } := by
    simp [Reception.established, Reception.releaseInFlight, ConnectionOrigin.isDialed, Reception.setStage,
      Reception.adoptFrom, Reception.raise, hspawn, hf.ski]
  rw [hrun, hended, hafter, hredial]
  exact {
    known := rfl
    sightings := hf.sightings
    clock := hf.clock
    ski := hf.ski
    limit := hf.limit
    links := hf.links
    dialed := rfl
    accepted := hf.accepted
    aligned := by simp [hf.aligned]
    attempts := by simp [hf.attempts]
    told := by
      simp only [hf.told, hf.attempts, List.range_succ, List.map_append]
      rfl
    dials := by
      simp only [hf.dials]
      exact List.replicate_succ'.symm }

theorem fooled_run (hne : peer ≠ own) (hmax : 0 < maxConnections) (store : TrustStore) (n : Nat) :
    Fooled own peer maxConnections address n
      (machine.run (.new own maxConnections store) (selfAnswered own peer address n)) := by
  induction n with
  | zero =>
    have hremember : machine.run (.new own maxConnections store) (selfAnswered own peer address 0) =
        { Schedule.new own maxConnections store with known := [⟨peer, address, none, 0, 0, false⟩] } :=
      if_neg hne
    rw [hremember]
    exact ⟨rfl, rfl, rfl, rfl, rfl, rfl, rfl, rfl, rfl, rfl, rfl, rfl⟩
  | succ n ih =>
    have hnext : selfAnswered own peer address (n + 1) =
        selfAnswered own peer address n ++ [.redial, .established n own] := by
      simp [selfAnswered, List.range_succ]
    have hagain := ih.again hne hmax
    rw [ih.attempts] at hagain
    rw [hnext, machine.run_append]
    exact hagain

end Schedule

/-- A peer that is remembered under an address of this node's own is dialled again each time the loop comes
by: that this node itself answers is reported, but no failure that is counted, and the next dial is due at
once. -/
theorem self_redials_unpaced (ski peer : Ski) (hne : peer ≠ ski) (maxConnections : Nat)
    (hmax : 0 < maxConnections) (store : TrustStore) (address : SocketAddr) (n : Nat) :
    let h := Schedule.machine.run (.new ski maxConnections store) (Schedule.selfAnswered ski peer address n)
    h.dials = List.replicate n (peer, 0) ∧ h.known = [⟨peer, address, none, 0, 0, false⟩] ∧
      h.reception.pending = (List.range n).map fun id =>
        (some id, .handshakeFailed (.dialed address) (some ski) .selfConnection) := by
  intro h
  have hf : Schedule.Fooled ski peer maxConnections address n h := Schedule.fooled_run hne hmax store n
  exact ⟨hf.dials, hf.known, hf.told⟩

theorem self_redials_unpaced_hundred :
    let h := Schedule.machine.run (.new 0 16 .empty) (Schedule.selfAnswered 0 1 ⟨1, 1⟩ 100)
    h.dials = List.replicate 100 (1, 0) ∧ h.known = [⟨1, ⟨1, 1⟩, none, 0, 0, false⟩] ∧
      h.reception.pending = (List.range 100).map fun id =>
        (some id, .handshakeFailed (.dialed ⟨1, 1⟩) (some 0) .selfConnection) :=
  self_redials_unpaced 0 1 (by decide +kernel) 16 (by decide) .empty ⟨1, 1⟩ 100

namespace Schedule

variable {h h' : Schedule} {resets removes : Ski → Prop}

def outstanding (h : Schedule) (peer : Ski) : Nat := h.expected.count (some peer)

def isMarked (peer : Ski) (k : Known) : Bool := k.ski == peer && k.dialing

/-- A handshake looks for a peer exactly where the peer is marked as being dialled. -/
def Single (h : Schedule) : Prop := ∀ peer, h.outstanding peer = h.known.countP (isMarked peer)

theorem countP_ski_le (hk : h.Kept) (peer : Ski) : (h.known.countP fun k => k.ski == peer) ≤ 1 := by
  have hcount := List.nodup_iff_count_le_one.mp hk.distinct peer
  rwa [List.count_eq_countP, List.countP_map] at hcount

theorem countP_marked_le (hk : h.Kept) (peer : Ski) : h.known.countP (isMarked peer) ≤ 1 := by
  refine (List.countP_mono_left fun k _ hmarked => ?_).trans (countP_ski_le hk peer)
  exact (Bool.and_eq_true_iff.mp hmarked).1

theorem countP_updateKnown (hk : h.Kept) (ski : Ski) (change : Known → Known) (peer : Ski) :
    (updateKnown ski change h.known).countP (isMarked peer) =
      h.known.countP fun k => isMarked peer (if k.ski = ski then change k else k) := by
  rw [updateKnown_eq_map hk.distinct, List.countP_map]
  rfl

theorem Single.update (hk : h.Kept) (hs : h.Single) (ski : Ski) (change : Known → Known)
    (hsame : ∀ k, (change k).ski = k.ski ∧ (change k).dialing = k.dialing) :
    ({ h with known := updateKnown ski change h.known } : Schedule).Single := by
  intro peer
  refine (hs peer).trans (Eq.trans (List.countP_congr fun k _ => ?_) (countP_updateKnown hk ski change peer).symm)
  split
  · rw [isMarked, isMarked, (hsame k).1, (hsame k).2]
  · exact Iff.rfl

theorem Single.deferExpected (hk : h.Kept) (hs : h.Single) (expected : Option Ski) :
    (h.deferExpected expected).Single := by
  cases expected with
  | none => exact hs
  | some ski => exact hs.update hk ski _ fun k => ⟨rfl, rfl⟩

theorem Single.dialed (hk : h.Kept) (hs : h.Single) {reception : Reception} {ski : Ski}
    (hdue : ∃ k ∈ h.known, k.ski = ski ∧ k.dialing = false) :
    ({ h with
        reception
        expected := h.expected ++ [some ski]
        dials := h.dials ++ [(ski, h.clock)]
        known := updateKnown ski (fun k => { k with dialing := true }) h.known } : Schedule).Single := by
  obtain ⟨k, hmem, rfl, hidle⟩ := hdue
  intro peer
  have hcount := countP_updateKnown hk k.ski (fun k => { k with dialing := true }) peer
  rw [outstanding, List.count_append, List.count_singleton, hcount]
  have hbefore : h.expected.count (some peer) = h.known.countP (isMarked peer) := hs peer
  by_cases hpeer : k.ski = peer
  · subst hpeer
    have hnone : h.known.countP (isMarked k.ski) = 0 := by
      refine List.countP_eq_zero.mpr fun other hother hmarked => ?_
      obtain ⟨hski, hdialing⟩ := Bool.and_eq_true_iff.mp hmarked
      obtain rfl : other = k := List.inj_on_of_nodup_map hk.distinct hother hmem (by simpa using hski)
      rw [hidle] at hdialing
      cases hdialing
    have hone : (h.known.countP fun other =>
        isMarked k.ski (if other.ski = k.ski then { other with dialing := true } else other)) = 1 := by
      have hsame : ∀ other ∈ h.known,
          (isMarked k.ski (if other.ski = k.ski then { other with dialing := true } else other) = true ↔
            (other.ski == k.ski) = true) := by
        intro other _
        by_cases hother : other.ski = k.ski <;> simp [isMarked, hother]
      rw [List.countP_congr hsame]
      exact le_antisymm (countP_ski_le hk k.ski) (List.countP_pos_iff.mpr ⟨k, hmem, by simp⟩)
    rw [hbefore, hnone, hone]
    simp
  · rw [hbefore, if_neg (by simpa using hpeer), Nat.add_zero]
    refine List.countP_congr fun other _ => ?_
    split
    case isTrue hother => simp [isMarked, hother, hpeer]
    case isFalse => exact Iff.rfl

theorem count_ended (expected : List (Option Ski)) (id : Nat) (peer : Ski) :
    (expected.set id none).count (some peer) =
      expected.count (some peer) - if expected[id]?.join = some peer then 1 else 0 := by
  rcases Nat.lt_or_ge id expected.length with hlt | hge
  · rw [List.count_set hlt, List.getElem?_eq_getElem hlt]
    simp
  · rw [List.set_eq_of_length_le hge, List.getElem?_eq_none hge]
    simp

theorem Single.finish (hk : h.Kept) (hs : h.Single) (reception : Reception) (id : Nat) :
    (h.finish reception id).Single := by
  intro peer
  have hbefore : h.expected.count (some peer) = h.known.countP (isMarked peer) := hs peer
  have hended := count_ended h.expected id peer
  rw [Schedule.finish, outstanding]
  cases hexpected : h.expected[id]?.join with
  | none =>
    rw [hexpected, if_neg (by simp)] at hended
    exact hended.trans hbefore
  | some ski =>
    have hcount := countP_updateKnown hk ski (fun k => { k with dialing := false }) peer
    simp only [dialEnded]
    rw [hcount, hended, hexpected, hbefore]
    by_cases hpeer : ski = peer
    · subst hpeer
      have hnone : (h.known.countP fun k => isMarked ski (if k.ski = ski then { k with dialing := false } else k)) = 0 := by
        refine List.countP_eq_zero.mpr fun k _ hmarked => ?_
        by_cases hk : k.ski = ski <;> simp [isMarked, hk] at hmarked
      have hle := countP_marked_le hk ski
      rw [hnone, if_pos rfl]
      omega
    · rw [if_neg (by simpa using hpeer), Nat.sub_zero]
      refine List.countP_congr fun k _ => ?_
      split
      case isTrue hk => simp [isMarked, hk, hpeer]
      case isFalse => exact Iff.rfl

theorem Single.forgets (hk : h.Kept) (hs : h.Single) {known : List Known} (hsub : known.Sublist h.known)
    (hgone : ∀ k ∈ h.known, k ∉ known → k.dialing = false) : ({ h with known } : Schedule).Single := by
  intro peer
  refine (hs peer).trans (le_antisymm ?_ hsub.countP_le)
  have hnodup : (h.known.filter (isMarked peer)).Nodup := (hk.distinct.of_map _).filter _
  have hsubset : h.known.filter (isMarked peer) ⊆ known.filter (isMarked peer) := by
    intro k hmarked
    obtain ⟨hmem, hmark⟩ := List.mem_filter.mp hmarked
    refine List.mem_filter.mpr ⟨?_, hmark⟩
    by_contra hnot
    have hdialing := (Bool.and_eq_true_iff.mp hmark).2
    rw [hgone k hmem hnot] at hdialing
    cases hdialing
  rw [List.countP_eq_length_filter, List.countP_eq_length_filter]
  exact (List.subperm_of_subset hnodup hsubset).length_le

theorem Single.move (hk : h.Kept) (hs : h.Single) (hremove : ∀ k ∈ h.known, removes k.ski → k.dialing = false)
    (hmove : Move resets removes h h') : h'.Single := by
  cases hmove with
  | wait clock store ownInstance hclock => exact hs
  | continues reception hreception => exact hs
  | spawns reception hreception =>
    intro peer
    rw [outstanding, List.count_append, List.count_singleton, if_neg (by simp), Nat.add_zero]
    exact hs peer
  | dials reception hreception ski hdue =>
    obtain ⟨k, hmem, hski, hidle, -⟩ := hdue
    exact hs.dialed hk ⟨k, hmem, hski, hidle⟩
  | ends reception id hreception hreset => exact hs.finish hk reception id
  | endsDeferred reception id hreception =>
    exact (hs.finish hk reception id).deferExpected (hk.finish hreception) _
  | deferred ski => exact hs.deferExpected hk (some ski)
  | restarts ski address hreset => exact hs.update hk ski _ fun k => ⟨rfl, rfl⟩
  | adds k hreset hown hnew hdialing =>
    intro peer
    rw [List.countP_append, List.countP_singleton, if_neg (by simp [isMarked, hdialing]), Nat.add_zero]
    exact hs peer
  | names ski instance_ => exact hs.update hk ski _ fun k => ⟨rfl, rfl⟩
  | forgets known hsub hgone =>
    exact hs.forgets hk hsub fun k hmem hnot => hremove k hmem (hgone k hmem hnot)
  | sights sightings hnodup hown hbound => exact hs

theorem Single.moves (hk : h.Kept) (hs : h.Single) (hremove : ∀ peer, ¬ removes peer)
    (hmoves : Relation.ReflTransGen (Move resets removes) h h') : h'.Single := by
  induction hmoves with
  | refl => exact hs
  | tail hbefore hmove ih =>
    exact ih.move (hk.moves hbefore) (fun k _ hremoved => absurd hremoved (hremove k.ski)) hmove

theorem Single.perform (hk : h.Kept) (hs : h.Single) {op : ScheduleOp}
    (hok : ∀ k ∈ h.known, h.Removes op k.ski → k.dialing = false) : (h.perform op).Single := by
  have hmoves := perform_moves hk op
  cases op with
  | forgetPeer ski =>
    refine hs.forgets hk List.filter_sublist fun k hmem hnot => hok k hmem ?_
    by_contra hne
    have hother : k.ski ≠ ski := hne
    exact hnot (List.mem_filter.mpr ⟨hmem, by simpa using hother⟩)
  | lost instance_ =>
    simp only [Schedule.perform, Schedule.lost]
    split
    case isTrue => exact hs
    case isFalse hother =>
      refine hs.forgets hk List.eraseP_sublist fun k hmem hnot => hok k hmem ⟨hother, k, hmem, rfl, ?_⟩
      by_contra hne
      exact hnot ((List.mem_eraseP_of_neg (by simpa using hne)).mpr hmem)
  | _ => exact hs.moves hk (fun _ hremoved => hremoved) hmoves

end Schedule

/-- Where no peer is forgotten while it is being dialled, one handshake at most looks for a peer at any
time, and one does exactly where the peer is marked as being dialled. -/
theorem one_dial_at_a_time (ski : Ski) (maxConnections : Nat) (store : TrustStore) (ops : List ScheduleOp)
    (hok : Schedule.machine.Admits (fun h op => ∀ k ∈ h.known, h.Removes op k.ski → k.dialing = false)
      (.new ski maxConnections store) ops) (peer : Ski) :
    let h := Schedule.machine.run (.new ski maxConnections store) ops
    h.outstanding peer ≤ 1 ∧ (h.outstanding peer = 1 ↔ ∃ k ∈ h.known, k.ski = peer ∧ k.dialing = true) := by
  intro h
  have hinv : h.Kept ∧ h.Single :=
    Schedule.machine.run_invariant _ (fun h => h.Kept ∧ h.Single)
      (fun _ op hinv hok => ⟨hinv.1.perform op, hinv.2.perform hinv.1 hok⟩) ops _
      ⟨Schedule.kept_new ski maxConnections store, fun _ => rfl⟩ hok
  have hcount : h.outstanding peer = h.known.countP (Schedule.isMarked peer) := hinv.2 peer
  have hle := Schedule.countP_marked_le hinv.1 peer
  rw [hcount]
  refine ⟨hle, fun hone => ?_, fun hmarked => le_antisymm hle (List.countP_pos_iff.mpr ?_)⟩
  · obtain ⟨k, hmem, hmark⟩ := List.countP_pos_iff.mp (hone.symm ▸ Nat.one_pos)
    obtain ⟨hski, hdialing⟩ := Bool.and_eq_true_iff.mp hmark
    exact ⟨k, hmem, by simpa using hski, hdialing⟩
  · obtain ⟨k, hmem, rfl, hdialing⟩ := hmarked
    exact ⟨k, hmem, by simp [Schedule.isMarked, hdialing]⟩

/-- A peer is dialled, fails, and is forgotten and remembered before it is dialled again. -/
theorem one_dial_at_a_time_again :
    let h := Schedule.machine.run (.new 0 16 .empty) [.remember 1 ⟨1, 1⟩, .redial,
      .failed 0 none (.handshake "timeout"), .forgetPeer 1, .remember 1 ⟨1, 1⟩, .redial]
    h.outstanding 1 ≤ 1 ∧ (h.outstanding 1 = 1 ↔ ∃ k ∈ h.known, k.ski = 1 ∧ k.dialing = true) := by
  have hidle : ∀ k ∈ (Schedule.machine.run (.new 0 16 .empty) [.remember 1 ⟨1, 1⟩, .redial,
      .failed 0 none (.handshake "timeout")]).known, k.dialing = false := by decide +kernel
  exact one_dial_at_a_time 0 16 .empty [.remember 1 ⟨1, 1⟩, .redial, .failed 0 none (.handshake "timeout"),
      .forgetPeer 1, .remember 1 ⟨1, 1⟩, .redial]
    ⟨fun _ _ h => h.elim, fun _ _ h => h.elim, fun _ _ h => h.elim, fun k hk _ => hidle k hk,
      fun _ _ h => h.elim, fun _ _ h => h.elim, trivial⟩ 1

/-- A peer that is forgotten while it is being dialled is dialled a second time. -/
example : (Schedule.machine.run (.new 0 16 .empty) [.remember 1 ⟨1, 1⟩, .redial, .forgetPeer 1,
    .remember 1 ⟨1, 1⟩, .redial]).outstanding 1 = 2 := by decide +kernel

end Eebus.Runtime
