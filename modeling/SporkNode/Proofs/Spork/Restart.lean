import SporkNode.Proofs.Spork.Freshness
import SporkNode.Proofs.Spork.Gate
import SporkNode.Proofs.Spork.Loading
import SporkNode.Work.Required

/-!
What a restart brings back. As long as its store works, a manager has on record exactly what is in
force for the known parameters, so a new one over the same store goes on where it stopped. What is
in force for numbers that nobody knows is stored too, but never looked for.
-/

namespace SporkNode.Spork

open Signature

namespace Manager

/-- What the store gives for a known parameter is what is in force for it. -/
def Mirrored (m : Manager) : Prop := ∀ p : Parameter, m.store.read p.id = .ok (m.message? p.id)

namespace Mirrored

variable {m : Manager}

theorem recorded (hm : m.Mirrored) (p : Parameter) : m.store.recorded p = m.message? p.id := by
  unfold Store.recorded
  rw [hm p]

theorem placed (hm : m.Mirrored) (hfiled : m.Filed) : m.store.Placed := by
  intro p msg h
  rw [hm.recorded] at h
  exact hfiled p.id msg h

theorem working (hm : m.Mirrored) : m.store.fault? = none := Store.working_of_read (hm .fixHeight)

theorem of_start {settings : Settings} {limits : Limits}
    (h : start settings limits .empty = .ok m) : m.Mirrored := by
  obtain ⟨-, -, hstore, hnone⟩ := authority_of_start h
  intro p
  rw [hstore, hnone, Store.read_eq rfl]
  simp [Store.empty]

/-- Loading finds what is there already. -/
theorem load (hm : m.Mirrored) (hfiled : m.Filed) : m.load.state.Mirrored := by
  intro p
  rw [load_store, load_message? (hm.placed hfiled), Parameter.ofId?_id, Option.bind_some,
    hm.recorded, Option.or_self]
  exact hm p

/-- A new manager over the store has what the old one had for the known parameters. -/
theorem load_start (hm : m.Mirrored) (hfiled : m.Filed) {settings : Settings} {limits : Limits}
    {fresh : Manager} (h : start settings limits m.store = .ok fresh) (id : Int32) :
    fresh.load.state.message? id =
      if (Parameter.ofId? id).isSome then m.message? id else none := by
  obtain ⟨-, -, hstore, hnone⟩ := authority_of_start h
  have hplaced : fresh.store.Placed := hstore ▸ hm.placed hfiled
  rw [load_message? hplaced, hnone, Option.or_none, hstore]
  cases hp : Parameter.ofId? id with
  | none => rfl
  | some p =>
    rw [← Parameter.ofId?_eq_some_iff.1 hp]
    exact hm.recorded p

theorem next [Scheme] {a : Authority} {op : Operation} {m' : Manager} (hm : m.Mirrored)
    (hfiled : m.Filed) (hgated : m'.Gated a) (hop : ∀ fault?, op ≠ .outage fault?)
    (h : m.Next op m') : m'.Mirrored := by
  cases h with
  | kept => exact hm
  | held msg governor =>
    -- only what verifies is short enough to be read back
    have hv : msg.verifies a = true := by
      apply hgated.active msg.id msg
      exact (message?_holding m msg msg.id).trans (if_pos rfl)
    intro p
    show (m.store.written msg).read p.id = .ok ((m.holding msg).message? p.id)
    rw [Store.read_written hm.working (Message.decode_encode_of_verifies hv), message?_holding]
    split
    · rfl
    · exact hm p
  | loaded => exact hm.load hfiled
  | restarted hstart =>
    intro p
    obtain ⟨-, -, hstore, -⟩ := authority_of_start hstart
    rw [load_store, hstore, hm.load_start hfiled hstart, Parameter.ofId?_id]
    exact hm p
  | outage fault? => exact absurd rfl (hop fault?)

/-- The store follows what is in force through every run in which it never fails. -/
theorem run [Scheme] {a : Authority} (hm : m.Mirrored) (hfiled : m.Filed) (hgated : m.Gated a)
    {ops : List Operation} (hops : ∀ op ∈ ops, ∀ fault?, op ≠ .outage fault?) :
    (m.run ops).Mirrored := by
  refine (run_invariant_of (P := fun m => m.Mirrored ∧ m.Filed ∧ m.Gated a) ?_
    ⟨hm, hfiled, hgated⟩ hops).1
  rintro m op hop ⟨hm, hfiled, hgated⟩
  have hnext := m.next_perform op
  have hgated' := hgated.perform op
  exact ⟨hm.next hfiled hgated' hop hnext, hfiled.next hnext, hgated'⟩

end Mirrored

/-- A manager that started from an empty store which never failed is made anew over that store,
after whatever happened to it in between. The new one has in force exactly what the old one had for
known parameters, tells how many these are and is heard by nobody. So it gives the same values for
all known parameters and demands the same work on every chain. -/
theorem restart_recalls [Scheme] {settings : Settings} {limits : Limits} {fresh : Manager}
    (h : start settings limits .empty = .ok fresh) {ops : List Operation}
    (hops : ∀ op ∈ ops, ∀ fault?, op ≠ .outage fault?) (limits' : Limits) :
    let m := fresh.run ops
    ∃ again, start settings limits' m.store = .ok again ∧
      (∀ id, again.load.state.message? id =
        if (Parameter.ofId? id).isSome then m.message? id else none) ∧
      again.load.state.messages = m.messages.filter (fun msg => (Parameter.ofId? msg.id).isSome) ∧
      again.load.reply = again.load.state.messages.length ∧
      (∀ e ∈ again.load.effects, ∃ entry, e = .log entry) ∧
      (∀ p : Parameter, again.load.state.value p.id = m.value p.id) ∧
      again.load.state.networkParameters = m.networkParameters ∧
      ∀ params tip history candidate o,
        Work.nextWork params again.load.state.networkParameters tip history candidate o =
          Work.nextWork params m.networkParameters tip history candidate o := by
  intro m
  obtain ⟨ha, -⟩ := authority_of_start h
  have hfiled : m.Filed := (Filed.of_start h).run ops
  have hmirrored : m.Mirrored := (Mirrored.of_start h).run (.of_start h)
    (.of_start Store.signedBy_empty ha h) hops
  obtain ⟨again, hagain⟩ : ∃ again, start settings limits' m.store = .ok again := by
    unfold start
    rw [ha]
    exact ⟨_, rfl⟩
  obtain ⟨-, -, hstore, hnone⟩ := authority_of_start hagain
  have hload := hmirrored.load_start hfiled hagain
  have hknown : ∀ p : Parameter, again.load.state.message? p.id = m.message? p.id := by
    intro p
    rw [hload, Parameter.ofId?_id]
    rfl
  have hparams : again.load.state.networkParameters = m.networkParameters := by
    apply networkParameters_congr
    intro p
    rw [hknown]
  have hagainFiled : again.Filed := .of_start hagain
  refine ⟨again, hagain, hload, ?_, ?_, load_effects again, ?_, hparams, ?_⟩
  · have hascending := messages_ascending hfiled
    rw [List.pairwise_map] at hascending
    apply ascending_ext (messages_ascending hagainFiled.load)
      (List.pairwise_map.2 (hascending.filter _))
    intro msg
    rw [mem_messages hagainFiled.load, hload, List.mem_filter, mem_messages hfiled]
    by_cases hid : (Parameter.ofId? msg.id).isSome = true
    · rw [if_pos hid]
      exact (and_iff_left hid).symm
    · rw [if_neg hid]
      exact iff_of_false nofun fun h => hid h.2
  · rw [load_reply, load_messages (hstore ▸ hmirrored.placed hfiled) hnone hagainFiled]
  · intro p
    apply value_congr
    rw [hknown]
  · intro params tip history candidate o
    rw [hparams]

/-- A message takes force, a key is refused and an update has none to go by. -/
def openDay : List Operation :=
  [.process openWorld ⟨1⟩ openMessage, .setKey "", .update openWorld .fixHeight 1]

theorem openDay_message? : (openManager.run openDay).message? 10004 = some openMessage := by
  have hrun : ∀ m : Manager, m.run openDay =
      (((m.process openWorld ⟨1⟩ openMessage).state.setKey "").state.update
        openWorld .fixHeight 1).state := fun _ => rfl
  have hbefore : ((openManager.process openWorld ⟨1⟩ openMessage).state.setKey "").state.message?
      10004 = some openMessage := by
    rw [setKey_message?, process_message?, if_pos ⟨openManager_takes, rfl⟩]
  rw [hrun]
  -- of whatever the update does, nothing concerns another parameter
  cases h : ((openManager.process openWorld ⟨1⟩ openMessage).state.setKey "").state.signedUpdate
      openWorld .fixHeight 1 with
  | error e =>
    rw [update_state, h]
    exact hbefore
  | ok msg =>
    rw [update_message? h, if_neg (by decide)]
    exact hbefore

/-- The message that was in force comes back. -/
theorem restart_recalls_open :
    Manager.start openSettings .default .empty = .ok openManager ∧
    (∀ op ∈ openDay, ∀ fault?, op ≠ .outage fault?) ∧
    (openManager.run openDay).message? 10004 = some openMessage ∧
    ∃ again, start openSettings .default (openManager.run openDay).store = .ok again ∧
      again.load.state.message? 10004 = some openMessage ∧
      again.load.state.networkParameters = (openManager.run openDay).networkParameters ∧
      again.load.reply = again.load.state.messages.length := by
  have hops : ∀ op ∈ openDay, ∀ fault?, op ≠ .outage fault? := by
    intro op hop fault?
    simp only [openDay, List.mem_cons, List.not_mem_nil, or_false] at hop
    obtain rfl | rfl | rfl := hop <;> exact nofun
  obtain ⟨again, hagain, hload, -, hreply, -, -, hparams, -⟩ :=
    restart_recalls start_open hops .default
  refine ⟨start_open, hops, openDay_message?, again, hagain, ?_, hparams, hreply⟩
  rw [hload, if_pos (by decide), openDay_message?]

end Manager

end SporkNode.Spork
