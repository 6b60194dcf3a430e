import Eebus.Library.Ledger
import Eebus.Runtime.PairingMessage

/-!
The receiving end of the pairing service: the evaluation of announced requests, whose verdicts the hub
acts on. The keyed hash is a parameter.
-/

namespace Eebus.Runtime

open Eebus.Library Eebus.Ship

/-- A key and the text that is hashed under it give the bytes of the code. -/
abbrev KeyedHash := List UInt8 → String → List UInt8

def constantTimeEq (a b : List UInt8) : Bool :=
  if a.length ≠ b.length then false
  else (a.zip b).foldl (fun acc pair => acc ||| (pair.1 ^^^ pair.2)) 0 == 0

theorem differences_eq_zero {a b : List UInt8} (hlength : a.length = b.length) (acc : UInt8) :
    (a.zip b).foldl (fun acc pair => acc ||| (pair.1 ^^^ pair.2)) acc = 0 ↔ acc = 0 ∧ a = b := by
  induction a generalizing b acc with
  | nil => simp [List.length_eq_zero_iff.mp hlength.symm]
  | cons x a ih =>
    cases b with
    | nil => cases hlength
    | cons y b =>
      rw [List.zip_cons_cons, List.foldl_cons, ih (Nat.succ.inj hlength), UInt8.or_eq_zero_iff,
        UInt8.xor_eq_zero_iff, List.cons.injEq, and_assoc]

theorem constantTimeEq_iff {a b : List UInt8} : constantTimeEq a b = true ↔ a = b := by
  by_cases hlength : a.length = b.length
  · simp [constantTimeEq, hlength, differences_eq_zero hlength]
  · simp only [constantTimeEq, ne_eq, hlength, not_false_eq_true, if_true, Bool.false_eq_true, false_iff]
    exact fun heq => hlength (congrArg List.length heq)

theorem eq_of_utf8 {s t : String} (h : s.toUTF8.data.toList = t.toUTF8.data.toList) : s = t :=
  String.toByteArray_inj.mp (ByteArray.ext (Array.toList_inj.mp h))

variable {hmacSha256 : KeyedHash}

namespace PairingRequest

def digest (request : PairingRequest) (hmacSha256 : KeyedHash) (secret : List UInt8) :
    Except PairingError String := do
  request.validate
  let nonce ← decodeHex request.trustNonce
  .ok (encodeHexUpper (hmacSha256 (secret ++ nonce) request.digestMessage))

def verifyDigest (request : PairingRequest) (hmacSha256 : KeyedHash) (secret : List UInt8)
    (digest : String) : Except PairingError Unit := do
  if digest.utf8ByteSize ≠ 64 || !isUpperHex digest then
    .error (.invalidField "digest" "64 uppercase hexadecimal digits")
  else
    let expected ← request.digest hmacSha256 secret
    if constantTimeEq expected.toUTF8.data.toList digest.toUTF8.data.toList then .ok ()
    else .error .digestMismatch

theorem digest_of_verify {request : PairingRequest} {secret : List UInt8}
    {digest : String} (h : request.verifyDigest hmacSha256 secret digest = .ok ()) :
    request.digest hmacSha256 secret = .ok digest := by
  unfold verifyDigest at h
  split at h
  · nomatch h
  cases hdigest : request.digest hmacSha256 secret with
  | error error =>
    rw [hdigest] at h
    nomatch h
  | ok expected =>
    rw [hdigest] at h
    change (if constantTimeEq _ _ = true then _ else _) = _ at h
    by_cases hequal : constantTimeEq expected.toUTF8.data.toList digest.toUTF8.data.toList = true
    · rw [eq_of_utf8 (constantTimeEq_iff.mp hequal)]
    · rw [if_neg hequal] at h
      nomatch h

end PairingRequest

structure PairingAnnouncement where
  request : PairingRequest
  digest : String
deriving DecidableEq

def upperHexValue (c : Char) : Option Nat :=
  if '0' ≤ c ∧ c ≤ '9' then some (c.toNat - '0'.toNat)
  else if 'A' ≤ c ∧ c ≤ 'F' then some (c.toNat - 'A'.toNat + 10)
  else none

def parseFingerprint (s : String) : Option Fingerprint := do
  if s.utf8ByteSize ≠ 64 then none
  else
    let digits ← s.toList.mapM upperHexValue
    some (Fin.ofNat (2 ^ 256) (digits.foldl (fun n digit => n * 16 + digit) 0))

namespace PairingAnnouncement

variable (pairs : List (String × String))

def get (field : String) : Except PairingError String :=
  match pairs.find? fun pair => pair.1 == field with
  | some (_, value) => .ok value
  | none => .error (.missing field)

def exactly (field expected : String) : Except PairingError Unit := do
  let value ← get pairs field
  if value = expected then .ok () else .error (.unsupported field value)

def fingerprint (field : String) : Except PairingError Fingerprint := do
  match parseFingerprint (← get pairs field) with
  | some fingerprint => .ok fingerprint
  | none => .error (.invalidField field "64 uppercase hexadecimal digits")

def id (field : String) : Except PairingError String := do
  let value ← get pairs field
  if value = "" then .error (.invalidField field "a SHIP ID") else .ok value

def parseNonce (s : String) : Except PairingError String :=
  if s.utf8ByteSize ≠ 32 || !isUpperHex s then
    .error (.invalidField "trustNonce" "32 uppercase hexadecimal digits")
  else .ok s

def fromPairs : Except PairingError PairingAnnouncement := do
  match pairs.head? with
  | some (key, value) =>
    if key = "txtvers" ∧ value = txtVers then .ok ()
    else .error (.invalidField "txtvers" "the first key, with the value 1")
  | none => .error (.invalidField "txtvers" "the first key, with the value 1")
  exactly pairs "parType" "fpSha256"
  exactly pairs "type" "addCu"
  exactly pairs "alg" "hmacSha256"
  let trustCurve ← get pairs "trustCurve"
  if trustCurve ∉ curves then .error (.unsupported "trustCurve" trustCurve)
  else
    let digest ← get pairs "digest"
    if digest.utf8ByteSize ≠ 64 || !isUpperHex digest then
      .error (.invalidField "digest" "64 uppercase hexadecimal digits")
    else
      let forId ← id pairs "forId"
      let forPar ← fingerprint pairs "forPar"
      let trustId ← id pairs "trustId"
      let trustPar ← fingerprint pairs "trustPar"
      let trustNonce ← parseNonce (← get pairs "trustNonce")
      .ok ⟨⟨forId, forPar, trustId, trustPar, trustCurve, trustNonce⟩, digest⟩

end PairingAnnouncement

def truncate (capacity : Nat) : List String → List String
  | [] => []
  | entry :: rest => if rest.length + 1 > capacity then truncate capacity rest else entry :: rest

theorem truncate_eq_drop (capacity : Nat) (entries : List String) :
    truncate capacity entries = entries.drop (entries.length - capacity) := by
  induction entries with
  | nil => simp [truncate]
  | cons entry rest ih =>
    by_cases hlong : rest.length + 1 > capacity
    · rw [truncate, if_pos hlong, ih, List.length_cons,
        show rest.length + 1 - capacity = (rest.length - capacity) + 1 by omega, List.drop_succ_cons]
    · rw [truncate, if_neg hlong, List.length_cons,
        show rest.length + 1 - capacity = 0 by omega, List.drop_zero]

theorem length_truncate_le (capacity : Nat) (entries : List String) :
    (truncate capacity entries).length ≤ capacity := by
  rw [truncate_eq_drop, List.length_drop]
  omega

theorem suffix_truncate {capacity : Nat} {entries newest : List String} (h : newest <:+ entries)
    (hroom : newest.length ≤ capacity) : newest <:+ truncate capacity entries := by
  obtain ⟨older, rfl⟩ := h
  have hle : (older ++ newest).length - capacity ≤ older.length := by
    rw [List.length_append]
    omega
  rw [truncate_eq_drop, List.drop_append_of_le_length hle]
  exact List.suffix_append _ _

structure ReplayGuard where
  entries : List String
  capacity : Nat
  positive : 1 ≤ capacity
  bounded : entries.length ≤ capacity

namespace ReplayGuard

def new (capacity : Nat) : ReplayGuard := ⟨[], max capacity 1, le_max_right _ _, Nat.zero_le _⟩

def fromEntries (entries : List String) (capacity : Nat) : ReplayGuard :=
  ⟨truncate (max capacity 1) entries, max capacity 1, le_max_right _ _, length_truncate_le _ _⟩

def contains (guard : ReplayGuard) (digest : String) : Bool := guard.entries.any fun e => e == digest

def accept (guard : ReplayGuard) (digest : String) : Bool × ReplayGuard :=
  if guard.contains digest then (false, guard)
  else
    (true, ⟨truncate guard.capacity (guard.entries ++ [digest]), guard.capacity, guard.positive,
      length_truncate_le _ _⟩)

end ReplayGuard

def PairingRequest.verify (request : PairingRequest) (hmacSha256 : KeyedHash) (secret : List UInt8)
    (digest : String) (guard : ReplayGuard) : Except PairingError Unit × ReplayGuard :=
  if guard.contains digest then (.error .replay, guard)
  else
    match request.verifyDigest hmacSha256 secret digest with
    | .error error => (.error error, guard)
    | .ok () => (.ok (), (guard.accept digest).2)

/-- What evaluation needs: the node's own SHIP ID and fingerprint, the secret, and the replay guard. -/
structure Receiver where
  shipId : String
  fingerprint : Fingerprint
  secret : List UInt8
  guard : ReplayGuard

namespace Receiver

def new (shipId : String) (fingerprint : Fingerprint) (secret : List UInt8) : Receiver :=
  ⟨shipId, fingerprint, secret, .new 64⟩

def withGuard (r : Receiver) (guard : ReplayGuard) : Receiver := { r with guard := guard }

def addressed (r : Receiver) (pairs : List (String × String)) : Bool :=
  pairs.any fun pair => pair.1 == "forId" && pair.2 == r.shipId

def evaluate (hmacSha256 : KeyedHash) (r : Receiver) (pairs : List (String × String)) :
    Except PairingError PairingRequest × Receiver :=
  if !r.addressed pairs then (.error .notForThisNode, r)
  else
    match PairingAnnouncement.fromPairs pairs with
    | .error error => (.error error, r)
    | .ok announcement =>
      if announcement.request.forPar ≠ r.fingerprint then (.error .notForThisNode, r)
      else
        match announcement.request.verify hmacSha256 r.secret announcement.digest r.guard with
        | (.error error, guard) => (.error error, { r with guard := guard })
        | (.ok (), guard) => (.ok announcement.request, { r with guard := guard })

section Evaluate

variable {hmacSha256 : KeyedHash} {r : Receiver} {pairs : List (String × String)}
  {announcement : PairingAnnouncement}

structure Passes (hmacSha256 : KeyedHash) (r : Receiver) (pairs : List (String × String))
    (announcement : PairingAnnouncement) : Prop where
  addressed : r.addressed pairs = true
  read : PairingAnnouncement.fromPairs pairs = .ok announcement
  forPar : announcement.request.forPar = r.fingerprint
  unheard : r.guard.contains announcement.digest = false
  signed : announcement.request.verifyDigest hmacSha256 r.secret announcement.digest = .ok ()

theorem Passes.evaluate (h : Passes hmacSha256 r pairs announcement) :
    r.evaluate hmacSha256 pairs =
      (.ok announcement.request, r.withGuard (r.guard.accept announcement.digest).2) := by
  have hverify : announcement.request.verify hmacSha256 r.secret announcement.digest r.guard =
      (.ok (), (r.guard.accept announcement.digest).2) := by
    rw [PairingRequest.verify, h.unheard, if_neg Bool.false_ne_true, h.signed]
  simp only [Receiver.evaluate, h.addressed, h.read, h.forPar, hverify, withGuard, ne_eq,
    not_true_eq_false, if_false, Bool.not_true, Bool.false_eq_true]

theorem evaluate_cases (hmacSha256 : KeyedHash) (r : Receiver) (pairs : List (String × String)) :
    (∃ announcement, Passes hmacSha256 r pairs announcement) ∨
      ∃ error, r.evaluate hmacSha256 pairs = (.error error, r) := by
  by_cases haddressed : r.addressed pairs = true
  case neg => exact .inr ⟨.notForThisNode, by simp [Receiver.evaluate, haddressed]⟩
  cases hread : PairingAnnouncement.fromPairs pairs with
  | error error => exact .inr ⟨error, by simp [Receiver.evaluate, haddressed, hread]⟩
  | ok announcement =>
    by_cases hpar : announcement.request.forPar = r.fingerprint
    case neg => exact .inr ⟨.notForThisNode, by simp [Receiver.evaluate, haddressed, hread, hpar]⟩
    cases hheard : r.guard.contains announcement.digest with
    | true =>
      exact .inr ⟨.replay, by
        simp [Receiver.evaluate, haddressed, hread, hpar, PairingRequest.verify, hheard]⟩
    | false =>
      cases hsigned : announcement.request.verifyDigest hmacSha256 r.secret announcement.digest with
      | error error =>
        exact .inr ⟨error, by
          simp [Receiver.evaluate, haddressed, hread, hpar, PairingRequest.verify, hheard, hsigned]⟩
      | ok _ => exact .inl ⟨announcement, haddressed, hread, hpar, hheard, hsigned⟩

theorem passes_of_ok {request : PairingRequest} (h : (r.evaluate hmacSha256 pairs).1 = .ok request) :
    ∃ announcement, announcement.request = request ∧ Passes hmacSha256 r pairs announcement := by
  cases evaluate_cases hmacSha256 r pairs with
  | inl hpasses =>
    obtain ⟨announcement, hpasses⟩ := hpasses
    rw [hpasses.evaluate] at h
    exact ⟨announcement, Except.ok.inj h, hpasses⟩
  | inr hrefused =>
    obtain ⟨error, hrefused⟩ := hrefused
    rw [hrefused] at h
    nomatch h

theorem evaluate_refused {error : PairingError} (h : (r.evaluate hmacSha256 pairs).1 = .error error) :
    (r.evaluate hmacSha256 pairs).2 = r := by
  cases evaluate_cases hmacSha256 r pairs with
  | inl hpasses =>
    obtain ⟨announcement, hpasses⟩ := hpasses
    rw [hpasses.evaluate] at h
    nomatch h
  | inr hrefused =>
    obtain ⟨error', hrefused⟩ := hrefused
    rw [hrefused]

/-- An accepted request names this node and its certificate, and its digest is over its own fields. -/
def Honest (hmacSha256 : KeyedHash) (r : Receiver) (pairs : List (String × String)) : Prop :=
  ∀ request, (r.evaluate hmacSha256 pairs).1 = .ok request →
    request.forId = r.shipId ∧ request.forPar = r.fingerprint ∧
      ∃ digest, PairingAnnouncement.fromPairs pairs = .ok ⟨request, digest⟩ ∧
        request.digest hmacSha256 r.secret = .ok digest

/-- The record names this node behind another addressee, and the digest that signs it for that other
one is new. -/
def Misdirects (hmacSha256 : KeyedHash) (r : Receiver) (pairs : List (String × String)) : Prop :=
  ∃ announcement, Passes hmacSha256 r pairs announcement ∧ announcement.request.forId ≠ r.shipId

theorem honest_iff : Honest hmacSha256 r pairs ↔ ¬Misdirects hmacSha256 r pairs := by
  constructor
  · rintro hhonest ⟨announcement, hpasses, hid⟩
    exact hid (hhonest announcement.request (congrArg Prod.fst hpasses.evaluate)).1
  · intro hdirect request hok
    obtain ⟨announcement, rfl, hpasses⟩ := passes_of_ok hok
    have hid : announcement.request.forId = r.shipId :=
      Decidable.not_not.mp fun hid => hdirect ⟨announcement, hpasses, hid⟩
    exact ⟨hid, hpasses.forPar, announcement.digest, hpasses.read, PairingRequest.digest_of_verify hpasses.signed⟩

end Evaluate

end Receiver

inductive ReceiverOp where
  | evaluate (pairs : List (String × String))
  /-- The remembered digests are persisted, and restored into a receiver with this capacity. -/
  | restore (capacity : Nat)
deriving DecidableEq

namespace Receiver

def perform (hmacSha256 : KeyedHash) (r : Receiver) : ReceiverOp → Receiver
  | .evaluate pairs => (r.evaluate hmacSha256 pairs).2
  | .restore capacity => r.withGuard (.fromEntries r.guard.entries capacity)

def machine (hmacSha256 : KeyedHash) : Machine Receiver ReceiverOp Unit where
  step r op := (r.perform hmacSha256 op, ())

def accepted (hmacSha256 : KeyedHash) (r : Receiver) : ReceiverOp → List String
  | .evaluate pairs =>
    match (r.evaluate hmacSha256 pairs).1, PairingAnnouncement.fromPairs pairs with
    | .ok _, .ok announcement => [announcement.digest]
    | _, _ => []
  | .restore _ => []

def acceptances (hmacSha256 : KeyedHash) (r : Receiver) (ops : List ReceiverOp) : List String :=
  (machine hmacSha256).collect (accepted hmacSha256) r ops

theorem accepted_of_passes {r : Receiver} {pairs : List (String × String)}
    {announcement : PairingAnnouncement} (h : Passes hmacSha256 r pairs announcement) :
    r.accepted hmacSha256 (.evaluate pairs) = [announcement.digest] := by
  simp only [accepted, h.evaluate, h.read]

theorem accepted_of_refused {r : Receiver} {pairs : List (String × String)}
    {error : PairingError} (h : r.evaluate hmacSha256 pairs = (.error error, r)) :
    r.accepted hmacSha256 (.evaluate pairs) = [] := by
  simp only [accepted, h]

theorem remembers_perform {r : Receiver} {op : ReceiverOp} {past : List String}
    {few : Nat} (hroom : few ≤ r.guard.capacity) (hrestore : ∀ capacity, op = .restore capacity → few ≤ capacity)
    (hlength : (past ++ r.accepted hmacSha256 op).length ≤ few) (hpast : past <:+ r.guard.entries)
    (hnodup : past.Nodup) :
    past ++ r.accepted hmacSha256 op <:+ (r.perform hmacSha256 op).guard.entries ∧
      (past ++ r.accepted hmacSha256 op).Nodup ∧ few ≤ (r.perform hmacSha256 op).guard.capacity := by
  cases op with
  | restore capacity =>
    have hcapacity : few ≤ max capacity 1 := le_trans (hrestore capacity rfl) (le_max_left _ _)
    have hfits : past.length ≤ max capacity 1 := by
      rw [accepted, List.append_nil] at hlength
      omega
    rw [accepted, List.append_nil]
    exact ⟨suffix_truncate hpast hfits, hnodup, hcapacity⟩
  | evaluate pairs =>
    cases evaluate_cases hmacSha256 r pairs with
    | inr hrefused =>
      obtain ⟨error, hrefused⟩ := hrefused
      rw [accepted_of_refused hrefused, List.append_nil, perform, hrefused]
      exact ⟨hpast, hnodup, hroom⟩
    | inl hpasses =>
      obtain ⟨announcement, hpasses⟩ := hpasses
      have hguard : (r.perform hmacSha256 (.evaluate pairs)).guard =
          ⟨truncate r.guard.capacity (r.guard.entries ++ [announcement.digest]), r.guard.capacity,
            r.guard.positive, length_truncate_le _ _⟩ := by
        rw [perform, hpasses.evaluate]
        simp only [withGuard, ReplayGuard.accept, hpasses.unheard, Bool.false_eq_true, if_false]
      have hnew : announcement.digest ∉ past := by
        intro hmem
        have hunheard := hpasses.unheard
        rw [ReplayGuard.contains, List.any_eq_false] at hunheard
        exact hunheard _ (hpast.subset hmem) (beq_self_eq_true _)
      rw [accepted_of_passes hpasses] at hlength ⊢
      rw [hguard]
      refine ⟨suffix_truncate ?_ (hlength.trans hroom), ?_, hroom⟩
      · obtain ⟨older, hentries⟩ := hpast
        exact ⟨older, by rw [← hentries, List.append_assoc]⟩
      · exact List.nodup_append.mpr ⟨hnodup, List.nodup_singleton _, fun a ha b hb heq =>
          hnew (List.mem_singleton.mp hb ▸ heq ▸ ha)⟩

theorem remembers_run {r : Receiver} {ops : List ReceiverOp} {few : Nat}
    (hroom : few ≤ r.guard.capacity) (hrestore : ∀ capacity, .restore capacity ∈ ops → few ≤ capacity)
    (hlength : (r.acceptances hmacSha256 ops).length ≤ few) :
    r.acceptances hmacSha256 ops <:+ ((machine hmacSha256).run r ops).guard.entries ∧
      (r.acceptances hmacSha256 ops).Nodup ∧ few ≤ ((machine hmacSha256).run r ops).guard.capacity := by
  induction ops using List.reverseRecOn with
  | nil => exact ⟨List.nil_suffix, List.nodup_nil, hroom⟩
  | append_singleton ops op ih =>
    have hsplit : r.acceptances hmacSha256 (ops ++ [op]) =
        r.acceptances hmacSha256 ops ++ ((machine hmacSha256).run r ops).accepted hmacSha256 op := by
      rw [acceptances, Machine.collect_append]
      simp only [Machine.collect, List.append_nil, acceptances]
    rw [hsplit] at hlength ⊢
    have hfew : (r.acceptances hmacSha256 ops).length ≤ few :=
      le_trans (by rw [List.length_append]; exact Nat.le_add_right _ _) hlength
    obtain ⟨hpast, hnodup, hcapacity⟩ := ih (fun c hc => hrestore c (List.mem_append_left _ hc)) hfew
    rw [Machine.run_append]
    exact remembers_perform hcapacity
      (fun c hc => hrestore c (List.mem_append_right _ (List.mem_singleton.mpr hc.symm))) hlength hpast hnodup

/-- What is promised of a run: every accepted request is honest, a refusal changes nothing, and few
enough acceptances are of different digests. -/
structure HonouredOnce (hmacSha256 : KeyedHash) (r : Receiver) (ops : List ReceiverOp) : Prop where
  honest : ∀ before pairs, before ++ [.evaluate pairs] <+: ops →
    Honest hmacSha256 ((machine hmacSha256).run r before) pairs
  refused : ∀ before pairs error, before ++ [.evaluate pairs] <+: ops →
    (((machine hmacSha256).run r before).evaluate hmacSha256 pairs).1 = .error error →
      (machine hmacSha256).run r (before ++ [.evaluate pairs]) = (machine hmacSha256).run r before
  once : (r.acceptances hmacSha256 ops).length ≤ r.guard.capacity →
    (∀ capacity, .restore capacity ∈ ops → (r.acceptances hmacSha256 ops).length ≤ capacity) →
      (r.acceptances hmacSha256 ops).Nodup
  distinct : ∀ request request' : PairingRequest, request.validate = .ok () → request'.validate = .ok () →
    request ≠ request' → request.forId = request'.forId → request.trustNonce = request'.trustNonce →
      request.digestMessage ≠ request'.digestMessage

/-- A request for this node behind which no other addressee hides. -/
def Directs (hmacSha256 : KeyedHash) (r : Receiver) (op : ReceiverOp) : Prop :=
  ∀ pairs, op = .evaluate pairs → ¬Misdirects hmacSha256 r pairs

/-- Requests are accepted once and only by their addressee in exactly the runs that evaluate no record
signed for another node. -/
theorem pairing_requests_honoured_iff (hmacSha256 : KeyedHash) (r : Receiver) (ops : List ReceiverOp) :
    HonouredOnce hmacSha256 r ops ↔ (machine hmacSha256).Admits (Directs hmacSha256) r ops := by
  constructor
  · intro h
    refine Machine.admits_of_steps _ fun before op hprefix => ?_
    rintro pairs rfl
    exact honest_iff.mp (h.honest before pairs hprefix)
  · intro hdirects
    refine ⟨fun before pairs hprefix => ?_, fun before pairs error _ herror => ?_, fun hroom hrestore => ?_,
      fun request request' hvalid hvalid' hne hid hnonce heq => ?_⟩
    · obtain ⟨-, hlast, -⟩ := (Machine.admits_append _ r before [.evaluate pairs]).mp
        (Machine.admits_prefix _ hdirects hprefix)
      exact honest_iff.mpr (hlast pairs rfl)
    · rw [Machine.run_append]
      exact evaluate_refused herror
    · exact (remembers_run hroom hrestore le_rfl).2.1
    · exact hne (PairingRequest.digestMessage_injective hvalid hvalid' hid hnonce heq)

def ownFingerprint : Fingerprint := 0xC74B7855D3479415F62CC01E5F6D9A93EBC676057D85417ADA16FD1384338943

def ownReceiver : Receiver :=
  .new "i:983327_u:C8277H008F-3" ownFingerprint
    [0x7A, 0x37, 0xDC, 0xF8, 0x1B, 0xDB, 0x50, 0xF8, 0xE9, 0x2C, 0xFA, 0x41, 0x60, 0xCC, 0xB3, 0xDE]

/-- Signed for the node that is named first, and heard by the one that is named behind it. -/
def twiceAddressed : List (String × String) :=
  [("txtvers", "1"), ("parType", "fpSha256"), ("forId", "i:983327_u:C8277H008F-4"),
   ("forId", "i:983327_u:C8277H008F-3"),
   ("forPar", "C74B7855D3479415F62CC01E5F6D9A93EBC676057D85417ADA16FD1384338943"),
   ("trustId", "i:46925_u:43652bk-2-gt1"),
   ("trustPar", "2CC72E781F7A7D2A08D50196C50FEDF0F7BA583F43F76C8C0DDEC9EEF0D005B4"),
   ("trustCurve", "secp256r1"), ("type", "addCu"), ("trustNonce", "BDCEE427FA7208DF3C1F2A749BA6F4D4"),
   ("alg", "hmacSha256"), ("digest", "0542FE35F62BCD8689AC1991DEF986524A4D6019F75F01CA35FBF8F38A17E30F")]

def recordHash : KeyedHash := fun _ _ =>
  [0x05, 0x42, 0xFE, 0x35, 0xF6, 0x2B, 0xCD, 0x86, 0x89, 0xAC, 0x19, 0x91, 0xDE, 0xF9, 0x86, 0x52,
   0x4A, 0x4D, 0x60, 0x19, 0xF7, 0x5F, 0x01, 0xCA, 0x35, 0xFB, 0xF8, 0xF3, 0x8A, 0x17, 0xE3, 0x0F]

theorem another_addressee_accepted :
    ¬HonouredOnce recordHash ownReceiver [.evaluate twiceAddressed] := by
  intro h
  have hok : (ownReceiver.evaluate recordHash twiceAddressed).1 =
      .ok ⟨"i:983327_u:C8277H008F-4", ownFingerprint, "i:46925_u:43652bk-2-gt1",
        0x2CC72E781F7A7D2A08D50196C50FEDF0F7BA583F43F76C8C0DDEC9EEF0D005B4, "secp256r1",
        "BDCEE427FA7208DF3C1F2A749BA6F4D4"⟩ := by rfl
  have hid := (h.honest [] twiceAddressed List.prefix_rfl _ hok).1
  exact absurd hid (by decide)

end Receiver

end Eebus.Runtime
