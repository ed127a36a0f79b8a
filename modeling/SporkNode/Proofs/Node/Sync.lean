import SporkNode.Node.Lifecycle
import SporkNode.Node.Outbound
import SporkNode.Proofs.Spork.Agreement
import SporkNode.Proofs.Spork.Listing

/-!
How a node catches up with a peer that it has asked for all that is in force. The answer is one
message for each number that is set. Whatever becomes of them on the way, as long as none is lost
and none is added, the node ends with the later of its own and the peer's message for each number;
one that had none ends with exactly the peer's.
-/

namespace SporkNode

open Signature Spork

namespace Spork

/-- The later of two messages, or the second if they bear the same time. -/
def later : Option Message → Option Message → Option Message
  | none, ours? => ours?
  | some theirs, none => some theirs
  | some theirs, some ours => if ours.time < theirs.time then some theirs else some ours

@[simp] theorem later_none (theirs? : Option Message) : later theirs? none = theirs? := by
  cases theirs? <;> rfl

/-- A second copy changes nothing. -/
@[simp] theorem later_later (theirs? ours? : Option Message) :
    later theirs? (later theirs? ours?) = later theirs? ours? := by
  cases theirs? with
  | none => rfl
  | some theirs =>
    cases ours? with
    | none =>
      show (if theirs.time < theirs.time then _ else _) = _
      rw [if_neg (Int64.lt_irrefl)]
      rfl
    | some ours =>
      by_cases hlt : ours.time < theirs.time
      · simp only [later, if_pos hlt, ite_self]
      · simp only [later, if_neg hlt]

namespace Manager

variable [Scheme]

/-- A message that verifies is weighed against the one held, and nothing else counts. -/
theorem process_message?_of_verifies {m : Manager} {msg : Message}
    (hv : msg.verifies m.authority = true) (w : World) (peer : PeerId) (id : Int32) :
    (m.process w peer msg).state.message? id =
      if msg.id = id then later (some msg) (m.message? id) else m.message? id := by
  rw [process_message?]
  by_cases hid : msg.id = id
  · subst hid
    have htakes : m.takes msg = true ↔
        ∀ held, m.message? msg.id = some held → held.time < msg.time := by
      rw [takes_iff, and_iff_left hv]
    cases hheld : m.message? msg.id with
    | none =>
      have : m.takes msg = true := htakes.2 (by simp [hheld])
      simp [this]
    | some held =>
      by_cases hlt : held.time < msg.time
      · have : m.takes msg = true := htakes.2 (by simpa [hheld] using hlt)
        simp [this, later, hlt]
      · have : ¬ m.takes msg = true := fun h => hlt (htakes.1 h held hheld)
        simp [this, later, hlt]
  · simp [hid]

end Manager

end Spork

namespace Node

/-- A payload that has come in. -/
structure Arrival where
  clock : Clock
  peer : PeerId
  payload : Bytes
  deriving DecidableEq, Repr

section

variable [Scheme]

/-- The node after handling payloads in turn. -/
def receive (n : Node) (arrivals : List Arrival) : Node :=
  arrivals.foldl (fun n a => (n.handle a.clock (.spork a.peer a.payload)).state) n

theorem handle_sporks_of_decode {n : Node} {payload : Bytes} {msg : Message}
    (h : Message.decode payload = .ok msg) (clock : Clock) (peer : PeerId) :
    (n.handle clock (.spork peer payload)).state.sporks =
      (n.sporks.process (n.world clock) peer msg).state := by
  unfold handle
  dsimp only
  rw [h]
  rfl

/-- The payload is a message that `a` signed, and if it is for `id` it is `theirs?`. -/
def Offers (a : Authority) (id : Int32) (theirs? : Option Message) (payload : Bytes) : Prop :=
  ∃ msg, Message.decode payload = .ok msg ∧ msg.verifies a = true ∧
    (msg.id = id → theirs? = some msg)

/-- The first payload for `id` decides, and those for other numbers have no say. -/
theorem receive_message? {n : Node} {a : Authority} {id : Int32} {theirs? : Option Message}
    {arrivals : List Arrival} (ha : n.sporks.authority = a)
    (h : ∀ arrival ∈ arrivals, Offers a id theirs? arrival.payload) :
    (n.receive arrivals).sporks.message? id = later theirs? (n.sporks.message? id) ∨
      (n.receive arrivals).sporks.message? id = n.sporks.message? id ∧
        ∀ arrival ∈ arrivals, ∀ msg, Message.decode arrival.payload = .ok msg → msg.id ≠ id := by
  induction arrivals generalizing n with
  | nil => exact .inr ⟨rfl, fun arrival hmem => absurd hmem List.not_mem_nil⟩
  | cons arrival rest ih =>
    obtain ⟨msg, hdecode, hv, hsame⟩ := h arrival List.mem_cons_self
    let next := (n.handle arrival.clock (.spork arrival.peer arrival.payload)).state
    have hsporks : next.sporks =
        (n.sporks.process (n.world arrival.clock) arrival.peer msg).state :=
      handle_sporks_of_decode hdecode arrival.clock arrival.peer
    have hauth : next.sporks.authority = a := by
      rw [hsporks, Manager.process_authority, ha]
    have hnext : next.sporks.message? id =
        if msg.id = id then later (some msg) (n.sporks.message? id)
        else n.sporks.message? id := by
      rw [hsporks, Manager.process_message?_of_verifies (ha.symm ▸ hv)]
    have hrest := ih hauth fun arrival hmem => h arrival (List.mem_cons_of_mem _ hmem)
    show (next.receive rest).sporks.message? id = _ ∨ (next.receive rest).sporks.message? id = _ ∧ _
    by_cases hid : msg.id = id
    · -- from here on every payload for `id` is a second copy
      rw [if_pos hid, ← hsame hid] at hnext
      rw [hnext, later_later] at hrest
      rcases hrest with hlater | ⟨hlater, -⟩
      · exact .inl hlater
      · exact .inl hlater
    · rw [if_neg hid] at hnext
      rw [hnext] at hrest
      refine hrest.imp_right fun ⟨hkept, hnone⟩ => ⟨hkept, ?_⟩
      intro other hmem msg' hdecode'
      rcases List.mem_cons.1 hmem with rfl | hmem
      · rw [hdecode] at hdecode'
        cases hdecode'
        exact hid
      · exact hnone other hmem msg' hdecode'

/-- If the payloads are the messages in force on a manager of the same network, each at least once,
then what arrives is weighed once for each number. -/
theorem receive_of_messages {n : Node} {theirs : Manager} {a : Authority}
    {arrivals : List Arrival} (ha : n.sporks.authority = a) (hfiled : theirs.Filed)
    (hgated : theirs.Gated a)
    (harrived : ∀ payload, payload ∈ arrivals.map (·.payload) ↔
      ∃ msg ∈ theirs.messages, msg.encode = payload) (id : Int32) :
    (n.receive arrivals).sporks.message? id =
      later (theirs.message? id) (n.sporks.message? id) := by
  have hdecode : ∀ msg ∈ theirs.messages,
      Message.decode msg.encode = .ok msg ∧ msg.verifies a = true := by
    intro msg hmem
    have hv := hgated.active msg.id msg ((Manager.mem_messages hfiled).1 hmem)
    exact ⟨Message.decode_encode_of_verifies hv, hv⟩
  have hoffers : ∀ arrival ∈ arrivals, Offers a id (theirs.message? id) arrival.payload := by
    intro arrival hmem
    obtain ⟨msg, hmsg, hpayload⟩ := (harrived arrival.payload).1 (List.mem_map_of_mem hmem)
    obtain ⟨hd, hv⟩ := hdecode msg hmsg
    rw [← hpayload]
    refine ⟨msg, hd, hv, ?_⟩
    rintro rfl
    exact (Manager.mem_messages hfiled).1 hmsg
  rcases receive_message? ha hoffers with hlater | ⟨hkept, hnone⟩
  · exact hlater
  · rw [hkept]
    cases htheirs : theirs.message? id with
    | none => rfl
    | some msg =>
      have hid := hfiled id msg htheirs
      have hmem : msg ∈ theirs.messages := (Manager.mem_messages hfiled).2 (hid ▸ htheirs)
      obtain ⟨arrival, hin, hpayload⟩ :=
        List.mem_map.1 ((harrived msg.encode).2 ⟨msg, hmem, rfl⟩)
      have hd : Message.decode arrival.payload = .ok msg := by
        rw [hpayload]
        exact (hdecode msg hmem).1
      exact absurd hid (hnone arrival hin msg hd)

omit [Scheme] in
theorem outbound_sendAll (m : Manager) (peer : PeerId) :
    outbound (m.sendAll peer).effects = m.messages.map fun msg => .spork peer msg.encode := by
  unfold outbound Manager.sendAll
  rw [List.filterMap_append, List.filterMap_map]
  show m.messages.filterMap (fun msg => some (Outbound.spork peer msg.encode)) ++ [] = _
  rw [List.append_nil, ← List.filterMap_eq_map]
  rfl

/-- A manager that is asked for all that is in force sends the peer that asked one message for each
number, in order, and tells how many. Once a node of the same network has handled all of them, in
whatever order, however often and from whomever, it holds the later of both messages for each
number, its own if they are of one time; one that held none holds exactly what was sent. -/
theorem sync_by_sendAll {settings : Settings} {limits limits' : Limits} {fresh fresh' : Manager}
    (h : Manager.start settings limits .empty = .ok fresh)
    (h' : Manager.start settings limits' .empty = .ok fresh') (ops ops' : List Operation)
    {n : Node} (hn : n.sporks = fresh'.run ops') (peer : PeerId) :
    let theirs := fresh.run ops
    let sent := outbound (theirs.sendAll peer).effects
    (theirs.sendAll peer).reply = theirs.messages.length ∧
    sent = theirs.messages.map (fun msg => .spork peer msg.encode) ∧
    (theirs.messages.map (·.id)).Pairwise (· < ·) ∧
    (∀ id msg, theirs.message? id = some msg ↔ msg ∈ theirs.messages ∧ msg.id = id) ∧
    ∀ arrivals : List Arrival,
      (∀ payload, payload ∈ arrivals.map (·.payload) ↔ .spork peer payload ∈ sent) →
      (∀ id, (n.receive arrivals).sporks.message? id =
        later (theirs.message? id) (n.sporks.message? id)) ∧
      ((∀ id, n.sporks.message? id = none) →
        (n.receive arrivals).sporks.active.toList = theirs.active.toList) := by
  intro theirs sent
  obtain ⟨ha, -⟩ := Manager.authority_of_start h
  have hgated : theirs.Gated fresh.authority :=
    (Manager.Gated.of_start Store.signedBy_empty ha h).run ops
  have hours : n.sporks.Gated fresh.authority :=
    hn ▸ (Manager.Gated.of_start Store.signedBy_empty ha h').run ops'
  have hfiled : theirs.Filed := (Manager.Filed.of_start h).run ops
  have hsent : sent = theirs.messages.map fun msg => .spork peer msg.encode :=
    outbound_sendAll theirs peer
  refine ⟨rfl, hsent, Manager.messages_ascending hfiled, ?_, ?_⟩
  · intro id msg
    rw [Manager.mem_messages hfiled]
    constructor
    · intro hmsg
      obtain rfl := hfiled id msg hmsg
      exact ⟨hmsg, rfl⟩
    · rintro ⟨hmsg, rfl⟩
      exact hmsg
  · intro arrivals harrived
    have hmerged : ∀ id, (n.receive arrivals).sporks.message? id =
        later (theirs.message? id) (n.sporks.message? id) := by
      apply receive_of_messages hours.authority hfiled hgated
      intro payload
      rw [harrived, hsent, List.mem_map]
      simp only [Outbound.spork.injEq, true_and]
    refine ⟨hmerged, ?_⟩
    intro hnone
    apply Manager.active_toList_congr
    intro id
    rw [hmerged, hnone, later_none]

end

/-- A node that has heard nothing yet. -/
def openNode : Node := ⟨{}, .empty, openManager, .running, true⟩

/-- It gets what there is twice over, and not from the one that sent it. -/
def openArrivals : List Arrival :=
  [⟨⟨1700000000, 0⟩, ⟨2⟩, openMessage.encode⟩, ⟨⟨1600000000, 0⟩, ⟨3⟩, openMessage.encode⟩]

theorem sync_by_sendAll_open :
    let theirs := openManager.run [.process openWorld ⟨1⟩ openMessage]
    Manager.start openSettings .default .empty = .ok openManager ∧
    openNode.sporks = openManager.run [] ∧
    outbound (theirs.sendAll ⟨2⟩).effects = [.spork ⟨2⟩ openMessage.encode] ∧
    (openNode.receive openArrivals).sporks.active.toList = theirs.active.toList ∧
    (openNode.receive openArrivals).sporks.message? 10004 = some openMessage := by
  intro theirs
  have hmessages : theirs.messages = [openMessage] := by
    show ((openManager.process openWorld ⟨1⟩ openMessage).state).messages = _
    rw [Manager.process_state, if_pos openManager_takes]
    rfl
  obtain ⟨-, hsent, -, hin, hsync⟩ := sync_by_sendAll start_open start_open
    [.process openWorld ⟨1⟩ openMessage] [] (n := openNode) rfl ⟨2⟩
  have hsent' : outbound (theirs.sendAll ⟨2⟩).effects = [.spork ⟨2⟩ openMessage.encode] := by
    rw [hsent]
    show theirs.messages.map _ = _
    rw [hmessages]
    rfl
  have hnone : ∀ id, openNode.sporks.message? id = none :=
    (Manager.authority_of_start start_open).2.2.2
  obtain ⟨hlater, hsame⟩ := hsync openArrivals <| by
    intro payload
    show _ ↔ Outbound.spork ⟨2⟩ payload ∈ outbound (theirs.sendAll ⟨2⟩).effects
    rw [hsent']
    simp [openArrivals]
  refine ⟨start_open, rfl, hsent', hsame hnone, ?_⟩
  have hheld : theirs.message? 10004 = some openMessage :=
    (hin 10004 openMessage).2 ⟨by rw [hmessages]; exact List.mem_singleton_self _, rfl⟩
  rw [hlater, hnone, later_none, hheld]

end Node

end SporkNode
