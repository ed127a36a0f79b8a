import SporkNode.Proofs.Spork.Delivery
import SporkNode.Proofs.Spork.Freshness
import SporkNode.Proofs.Spork.Gate

/-!
The holder of the key and its peers. The holder puts each of its own messages in force as it signs
it, a peer only those that are newer than what it has. While the holder's clock does not step back,
both end with a message of the last time for each parameter. If the holder did not change its mind
within that time they have the same value; if it did, the order of delivery decides.
-/

namespace SporkNode.Spork

open Signature

/-- An order to set a parameter. -/
structure Change where
  world : World
  parameter : Parameter
  value : Int64

namespace Change

def operation (c : Change) : Operation := .update c.world c.parameter c.value

def time (c : Change) : Int64 := c.world.clock.stamp

end Change

/-- All the messages have arrived, and no others. -/
def Carries (ds : List Delivery) (msgs : List Message) : Prop :=
  ∀ msg, msg ∈ ds.map (·.message) ↔ msg ∈ msgs

namespace Manager

section

variable [Scheme]

/-! ## The holder of the key -/

/-- The manager after a row of changes of its own. -/
def carry (m : Manager) (cs : List Change) : Manager := m.run (cs.map Change.operation)

/-- The message that a change gives to the network, if it can be signed and stored. -/
def yield (m : Manager) (c : Change) : List Message :=
  (m.update c.world c.parameter c.value).reply.toOption.toList

/-- The messages of a row of changes, in order. -/
def issued (m : Manager) : List Change → List Message
  | [] => []
  | c :: cs => m.yield c ++ (m.update c.world c.parameter c.value).state.issued cs

/-- The manager signs with the key of `s` and has a store that works. -/
structure Holds (m : Manager) (s : Signer) : Prop where
  signer : m.signer? = some s
  working : m.store.fault? = none

theorem setKey_eq_ok {m : Manager} {text : String} (h : (m.setKey text).reply = .ok ()) :
    ∃ s, m.provenSigner text = .ok s ∧ (m.setKey text).state = { m with signer? := some s } := by
  cases hs : m.provenSigner text with
  | ok s => exact ⟨s, rfl, by rw [setKey_eq_of_proven hs]⟩
  | error e =>
    unfold provenSigner at hs
    unfold setKey at h
    dsimp only at h
    rw [hs] at h
    cases h

/-- With a store that works an update answers with the message that it put in force. -/
theorem update_reply_of_working {m : Manager} (h : m.store.fault? = none) (w : World)
    (p : Parameter) (value : Int64) :
    (m.update w p value).reply = m.signedUpdate w p value := by
  rw [update_reply, h]
  cases m.signedUpdate w p value <;> rfl

theorem Holds.update {m : Manager} {s : Signer} (hm : m.Holds s) (w : World) (p : Parameter)
    (value : Int64) : (m.update w p value).state.Holds s := by
  rw [update_state]
  split
  · exact hm
  · refine ⟨hm.signer, ?_⟩
    show (m.store.written _).fault? = none
    rw [Store.written_eq, hm.working]

theorem mem_yield {m : Manager} (h : m.store.fault? = none) {c : Change} {msg : Message} :
    msg ∈ m.yield c ↔ m.signedUpdate c.world c.parameter c.value = .ok msg := by
  rw [yield, update_reply_of_working h]
  cases m.signedUpdate c.world c.parameter c.value with
  | error e => exact ⟨nofun, nofun⟩
  | ok signed =>
    rw [Except.ok.injEq, eq_comm]
    exact List.mem_singleton

/-- What is held for a parameter stays the newest, as the clock is not behind what was signed
before. -/
theorem newest_update {m : Manager} {s : Signer} {a : Authority} {seen : List Message} {id : Int32}
    {c : Change} (hm : m.Holds s) (hs : s.SpeaksFor a)
    (h : Newest (·.verifies a = true) seen id (m.message? id))
    (hpast : ∀ msg ∈ seen, msg.time ≤ c.time) :
    Newest (·.verifies a = true) (seen ++ m.yield c) id
      ((m.update c.world c.parameter c.value).state.message? id) := by
  rw [yield, update_reply_of_working hm.working]
  cases hmsg : m.signedUpdate c.world c.parameter c.value with
  | error e =>
    rw [update_state, hmsg]
    show Newest _ (seen ++ []) id (m.message? id)
    rw [List.append_nil]
    exact h
  | ok msg =>
    obtain ⟨hid, -, htime⟩ := signedUpdate_eq_ok hmsg
    show Newest _ (seen ++ [msg]) id _
    rw [update_message? hmsg]
    split
    · rename_i hp
      have hv : msg.verifies a = true := by
        rw [signedUpdate_eq hm.signer] at hmsg
        exact Message.verifies_of_sign hs hmsg
      apply h.replace (hid.trans hp) hv
      intro held hheld
      rw [hheld] at h
      rw [htime]
      exact hpast held h.1
    · rename_i hp
      apply h.keep
      intro hmid
      exact absurd (hid.symm.trans hmid) hp

/-- The holder has the last of its messages, and none is newer. -/
theorem newest_carry {m : Manager} {s : Signer} {a : Authority} {seen : List Message} {id : Int32}
    {cs : List Change} (hm : m.Holds s) (hs : s.SpeaksFor a)
    (h : Newest (·.verifies a = true) seen id (m.message? id))
    (hpast : ∀ msg ∈ seen, ∀ c ∈ cs, msg.time ≤ c.time)
    (hclock : (cs.map Change.time).Pairwise (· ≤ ·)) :
    Newest (·.verifies a = true) (seen ++ m.issued cs) id ((m.carry cs).message? id) := by
  induction cs generalizing m seen with
  | nil =>
    rw [issued, List.append_nil]
    exact h
  | cons c cs ih =>
    obtain ⟨hnow, hclock⟩ := List.pairwise_cons.1 hclock
    have hstep := newest_update hm hs h fun msg hmsg => hpast msg hmsg c List.mem_cons_self
    have hpast' : ∀ msg ∈ seen ++ m.yield c, ∀ c' ∈ cs, msg.time ≤ c'.time := by
      intro msg hmsg c' hc'
      rcases List.mem_append.1 hmsg with hmsg | hmsg
      · exact hpast msg hmsg c' (List.mem_cons_of_mem _ hc')
      · rw [(signedUpdate_eq_ok ((mem_yield hm.working).1 hmsg)).2.2]
        exact hnow _ (List.mem_map_of_mem hc')
    have hrest := ih (hm.update c.world c.parameter c.value) hstep hpast' hclock
    rw [List.append_assoc] at hrest
    exact hrest

theorem issued_verifies {m : Manager} {s : Signer} {a : Authority} (hm : m.Holds s)
    (hs : s.SpeaksFor a) (cs : List Change) : ∀ msg ∈ m.issued cs, msg.verifies a = true := by
  induction cs generalizing m with
  | nil => exact fun msg hmsg => absurd hmsg List.not_mem_nil
  | cons c cs ih =>
    intro msg hmsg
    rcases List.mem_append.1 hmsg with hmsg | hmsg
    · rw [mem_yield hm.working, signedUpdate_eq hm.signer] at hmsg
      exact Message.verifies_of_sign hs hmsg
    · exact ih (hm.update c.world c.parameter c.value) msg hmsg

theorem issued_pair {m : Manager} {s : Signer} (hm : m.Holds s) {w : World} {p : Parameter}
    {value value' : Int64} {first second : Message}
    (h : (Message.unsigned p.id value w.clock.stamp).sign s = .ok first)
    (h' : (Message.unsigned p.id value' w.clock.stamp).sign s = .ok second) :
    m.issued [⟨w, p, value⟩, ⟨w, p, value'⟩] = [first, second] ∧
      (m.carry [⟨w, p, value⟩, ⟨w, p, value'⟩]).message? p.id = some second := by
  have hm' := hm.update w p value
  have hfirst : m.signedUpdate w p value = .ok first := by rw [signedUpdate_eq hm.signer, h]
  have hsecond : (m.update w p value).state.signedUpdate w p value' = .ok second := by
    rw [signedUpdate_eq hm'.signer, h']
  constructor
  · simp only [issued, yield, update_reply_of_working hm.working,
      update_reply_of_working hm'.working, hfirst, hsecond]
    rfl
  · show (((m.update w p value).state.update w p value').state).message? p.id = some second
    rw [update_message? hsecond, if_pos rfl]

/-! ## The peers -/

/-- What is held stays while nothing newer comes. -/
theorem deliver_keeps {m : Manager} {id : Int32} {held : Message} {ds : List Delivery}
    (h : m.message? id = some held)
    (hle : ∀ d ∈ ds, d.message.id = id → d.message.time ≤ held.time) :
    (m.deliver ds).message? id = some held := by
  induction ds generalizing m with
  | nil => exact h
  | cons d ds ih =>
    have hstep : (m.process d.world d.peer d.message).state.message? id = some held := by
      rw [process_message?, if_neg, h]
      rintro ⟨htakes, hid⟩
      have hlt := (takes_iff.1 htakes).1 held (hid ▸ h)
      exact Int64.not_lt.2 (hle d List.mem_cons_self hid) hlt
    exact ih hstep fun d' hd' => hle d' (List.mem_cons_of_mem _ hd')

/-- Of several valid messages of the last time a new manager may be given any first, and then it
keeps that one. -/
theorem exists_delivery_keeping {m : Manager} {msgs : List Message} {msg : Message}
    (hnone : m.message? msg.id = none) (hmem : msg ∈ msgs) (hv : msg.verifies m.authority = true)
    (hlast : ∀ other ∈ msgs, other.id = msg.id → other.time ≤ msg.time) :
    ∃ ds, Carries ds msgs ∧ (m.deliver ds).message? msg.id = some msg := by
  let rest : List Delivery := msgs.map fun msg => ⟨openWorld, ⟨0⟩, msg⟩
  have hrest : rest.map (·.message) = msgs := by
    simp only [rest, List.map_map, Function.comp_def, List.map_id']
  have htakes : m.takes msg = true := by
    apply takes_iff.2
    refine ⟨?_, hv⟩
    intro held hheld
    rw [hnone] at hheld
    cases hheld
  have hfirst : (m.process openWorld ⟨0⟩ msg).state.message? msg.id = some msg := by
    rw [process_message?, if_pos ⟨htakes, rfl⟩]
  refine ⟨⟨openWorld, ⟨0⟩, msg⟩ :: rest, ?_, ?_⟩
  · intro other
    rw [List.map_cons, hrest, List.mem_cons]
    constructor
    · rintro (rfl | ho)
      · exact hmem
      · exact ho
    · exact .inr
  · show ((m.process openWorld ⟨0⟩ msg).state.deliver rest).message? msg.id = some msg
    apply deliver_keeps hfirst
    intro d hd hid
    exact hlast d.message (hrest ▸ List.mem_map_of_mem hd) hid

end

end Manager

/-- Two nodes that each hold the newest of the same messages hold one of the same time. -/
theorem Newest.time_eq {valid : Message → Prop} {seen seen' : List Message} {id : Int32}
    {a? b? : Option Message} (ha : Newest valid seen id a?) (hb : Newest valid seen' id b?)
    (hsame : ∀ msg, msg ∈ seen ↔ msg ∈ seen') : a?.map (·.time) = b?.map (·.time) := by
  cases a? with
  | none =>
    cases b? with
    | none => rfl
    | some b => exact absurd hb.2.2.1 (ha b ((hsame b).2 hb.1) hb.2.1)
  | some a =>
    cases b? with
    | none => exact absurd ha.2.2.1 (hb a ((hsame a).1 ha.1) ha.2.1)
    | some b =>
      obtain ⟨hamem, haid, hav, hamax⟩ := ha
      obtain ⟨hbmem, hbid, hbv, hbmax⟩ := hb
      exact congrArg some (Int64.le_antisymm (hbmax a ((hsame a).1 hamem) haid hav)
        (hamax b ((hsame b).2 hbmem) hbid hbv))

/-- They hold the same value if all the messages of that time say what one of them holds. -/
theorem Newest.value_eq {valid : Message → Prop} {seen seen' : List Message} {id : Int32}
    {a? b? : Option Message} (ha : Newest valid seen id a?) (hb : Newest valid seen' id b?)
    (hsame : ∀ msg, msg ∈ seen ↔ msg ∈ seen')
    (htold : ∀ msg ∈ seen', msg.id = id → ∀ held, b? = some held → msg.time = held.time →
      msg.value = held.value) : a?.map (·.value) = b?.map (·.value) := by
  have htime := ha.time_eq hb hsame
  cases a? with
  | none => rw [Option.map_eq_none_iff.1 htime.symm]
  | some a =>
    obtain ⟨b, rfl, hab⟩ := Option.map_eq_some_iff.1 htime.symm
    exact congrArg some (htold a ((hsame a).1 ha.1) ha.2.1 b rfl hab.symm)

namespace Manager

/-- A new node that took the key holds it for the network's authority, and no messages. -/
theorem holds_of_setKey [Scheme] {settings : Settings} {limits : Limits} {store : Store}
    {fresh : Manager} {secret : String} (h : start settings limits store = .ok fresh)
    (hwork : store.fault? = none) (hkey : (fresh.setKey secret).reply = .ok ()) :
    ∃ s, s.SpeaksFor fresh.authority ∧ (fresh.setKey secret).state.Holds s ∧
      ∀ id, (fresh.setKey secret).state.message? id = none := by
  obtain ⟨ha, hset, hstore, hnone⟩ := authority_of_start h
  obtain ⟨s, hproven, hmaster⟩ := setKey_eq_ok hkey
  rw [hmaster]
  exact ⟨s, speaksFor_of_provenSigner (by rw [hset, ha]) rfl hproven,
    ⟨rfl, by rw [← hwork, ← hstore]⟩, hnone⟩

end Manager

open Manager in
/-- A new node is given the network's key and makes changes by a clock that does not step back;
another is sent its messages. However they arrive, both end with messages of the same time. They
always agree on a parameter's value just if all that was signed for it within the last time says
what is in force. -/
theorem peers_agree_iff [Scheme] {settings : Settings} {limits limits' : Limits}
    {store store' : Store} {fresh peer : Manager} {secret : String} {cs : List Change}
    (h : start settings limits store = .ok fresh) (hwork : store.fault? = none)
    (hkey : (fresh.setKey secret).reply = .ok ())
    (h' : start settings limits' store' = .ok peer)
    (hclock : (cs.map Change.time).Pairwise (· ≤ ·)) (id : Int32) :
    let master := (fresh.setKey secret).state
    (∀ ds, Carries ds (master.issued cs) →
      ((peer.deliver ds).message? id).map (·.time) =
        ((master.carry cs).message? id).map (·.time)) ∧
    ((∀ ds, Carries ds (master.issued cs) →
        (peer.deliver ds).value id = (master.carry cs).value id) ↔
      ∀ msg ∈ master.issued cs, msg.id = id →
        ∀ held, (master.carry cs).message? id = some held → msg.time = held.time →
          msg.value = held.value) := by
  intro master
  obtain ⟨s, hspeaks, hholds, hempty⟩ := holds_of_setKey h hwork hkey
  obtain ⟨ha, -⟩ := authority_of_start h
  obtain ⟨ha', -, -, hnone⟩ := authority_of_start h'
  have hauth : peer.authority = fresh.authority := eq_of_ok ha' ha
  have hmaster : Newest (·.verifies fresh.authority = true) (master.issued cs) id
      ((master.carry cs).message? id) := by
    apply newest_carry hholds hspeaks _ (fun msg hmsg => absurd hmsg List.not_mem_nil) hclock
    rw [hempty id]
    exact Newest.nil
  have hpeer : ∀ ds, Newest (·.verifies fresh.authority = true) (ds.map (·.message)) id
      ((peer.deliver ds).message? id) := by
    intro ds
    rw [← hauth]
    exact newest_deliver_start h' ds id
  refine ⟨fun ds hds => (hpeer ds).time_eq hmaster hds, ?_, ?_⟩
  · -- a peer that gets the message in question first keeps it
    rintro hagree msg hmsg rfl held hheld hsame
    have hvalid := issued_verifies hholds hspeaks cs
    have hlast : ∀ other ∈ master.issued cs, other.id = msg.id → other.time ≤ msg.time := by
      intro other ho hid
      rw [hheld] at hmaster
      rw [hsame]
      exact hmaster.2.2.2 other ho hid (hvalid other ho)
    obtain ⟨ds, hds, hkept⟩ :=
      exists_delivery_keeping (hnone msg.id) hmsg (hauth ▸ hvalid msg hmsg) hlast
    rw [← value_of_message? hkept, hagree ds hds, value_of_message? hheld]
  · intro htold ds hds
    exact value_congr ((hpeer ds).value_eq hmaster hds htold)

/-! ## Two changes in one second -/

theorem openSigner_signs_open :
    ((Message.unsigned 10004 1005 1600000000).sign openSigner).isOk = true := by
  decide +kernel

def secondThoughts : List Change :=
  [⟨openSecond, .instantSendMaxValue, 1005⟩, ⟨openSecond, .instantSendMaxValue, 7⟩]

theorem secondThoughts_ordered : (secondThoughts.map Change.time).Pairwise (· ≤ ·) := by decide

theorem openMaster_holds : openMaster.Holds openSigner := ⟨rfl, rfl⟩

theorem setKey_open_reply : (openManager.setKey openSecret).reply = .ok () := by
  rw [Manager.setKey_eq_of_proven provenSigner_open]

theorem peers_agree_iff_open :
    let master := (openManager.setKey openSecret).state
    Manager.start openSettings .default .empty = .ok openManager ∧
    Store.empty.fault? = none ∧ (openManager.setKey openSecret).reply = .ok () ∧
    (secondThoughts.map Change.time).Pairwise (· ≤ ·) ∧
    ∀ ds, Carries ds (master.issued secondThoughts) →
      ((openManager.deliver ds).message? 10004).map (·.time) =
        ((master.carry secondThoughts).message? 10004).map (·.time) :=
  ⟨start_open, rfl, setKey_open_reply, secondThoughts_ordered,
    (peers_agree_iff start_open rfl setKey_open_reply start_open secondThoughts_ordered 10004).1⟩

/-- The holder thinks twice within a second. Its peer is sent both messages and keeps the first. -/
theorem peers_disagree_within_second :
    let master := (openManager.setKey openSecret).state
    Manager.start openSettings .default .empty = .ok openManager ∧
    Store.empty.fault? = none ∧ (openManager.setKey openSecret).reply = .ok () ∧
    (secondThoughts.map Change.time).Pairwise (· ≤ ·) ∧
    ∃ ds, Carries ds (master.issued secondThoughts) ∧
      (openManager.deliver ds).value 10004 = 1005 ∧
      (master.carry secondThoughts).value 10004 = 7 := by
  intro master
  have hmaster : master = openMaster := by
    rw [show master = (openManager.setKey openSecret).state from rfl,
      Manager.setKey_eq_of_proven provenSigner_open, openMaster]
  obtain ⟨first, hfirst⟩ := isOk_iff.1 openSigner_signs_open
  obtain ⟨second, hsecond⟩ := isOk_iff.1 openSigner_signs_rival
  rw [hmaster]
  refine ⟨start_open, rfl, setKey_open_reply, secondThoughts_ordered, ?_⟩
  obtain ⟨hissued, hheld⟩ : openMaster.issued secondThoughts = [first, second] ∧
      (openMaster.carry secondThoughts).message? 10004 = some second :=
    Manager.issued_pair openMaster_holds hfirst hsecond
  obtain ⟨hid, hvalue, htime⟩ := Message.of_sign hfirst
  obtain ⟨-, hvalue', htime'⟩ := Message.of_sign hsecond
  have hnone : openManager.message? first.id = none :=
    (Manager.authority_of_start start_open).2.2.2 first.id
  have hv : first.verifies openManager.authority = true :=
    Message.verifies_of_sign openSigner_speaksFor hfirst
  have hlast : ∀ other ∈ [first, second], other.id = first.id → other.time ≤ first.time := by
    intro other hother _
    simp only [List.mem_cons, List.not_mem_nil, or_false] at hother
    obtain rfl | rfl := hother
    · exact Int64.le_refl _
    · rw [htime, htime']
      exact Int64.le_refl _
  obtain ⟨ds, hds, hkept⟩ :=
    Manager.exists_delivery_keeping hnone List.mem_cons_self hv hlast
  rw [show first.id = 10004 from hid] at hkept
  refine ⟨ds, hissued ▸ hds, ?_, ?_⟩
  · rw [Manager.value_of_message? hkept, hvalue]
    rfl
  · rw [Manager.value_of_message? hheld, hvalue']
    rfl

end SporkNode.Spork
