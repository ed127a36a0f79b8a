import SporkNode.Proofs.Spork.Operation

/-!
The signature gate. Nothing is held in memory or in the store that the configured authority did not
sign. Messages from peers are checked at the door; what the node signs itself is good because its
key was, and what it loads is good because the store is.
-/

namespace SporkNode.Spork

open Signature

/-- Every record is the writing of a message that `a` signed. -/
def Store.SignedBy [Scheme] (s : Store) (a : Authority) : Prop :=
  ∀ key record : Bytes, s.records[key]? = some record →
    ∃ msg, Message.decode record = .ok msg ∧ msg.verifies a = true

/-- What a run of operations keeps of a manager over a network with authority `a`. -/
structure Manager.Gated [Scheme] (a : Authority) (m : Manager) : Prop where
  settings : Authority.ofSettings m.settings = .ok a
  authority : m.authority = a
  /-- The probe of an installed key tells that it is the authority's. -/
  signer : ∀ s, m.signer? = some s → s.SpeaksFor a
  active : ∀ id msg, m.message? id = some msg → msg.verifies a = true
  byHash : ∀ h msg, m.byHash? h = some msg → msg.verifies a = true
  stored : m.store.SignedBy a

section

variable [Scheme] {a : Authority}

namespace Store

theorem signedBy_empty : empty.SignedBy a := by
  intro key record h
  simp [empty] at h

theorem SignedBy.written {s : Store} (hs : s.SignedBy a) {msg : Message}
    (hv : msg.verifies a = true) : (s.written msg).SignedBy a := by
  rw [written_eq]
  split
  · intro key record h
    rw [Std.HashMap.getElem?_insert] at h
    split at h
    · cases h
      exact ⟨msg, Message.decode_encode_of_verifies hv, hv⟩
    · exact hs key record h
  · exact hs

theorem SignedBy.read {s : Store} (hs : s.SignedBy a) {id : Int32} {msg : Message}
    (h : s.read id = .ok (some msg)) : msg.verifies a = true := by
  obtain ⟨record, hrecord, hmsg⟩ := read_eq_some h
  obtain ⟨signed, hsigned, hv⟩ := hs (keyOf id) record hrecord
  obtain rfl : signed = msg := eq_of_ok hsigned hmsg
  exact hv

end Store

namespace Manager

/-- The probe is checked by the authority itself, and no more is asked of a key. -/
theorem speaksFor_of_provenSigner {m : Manager} (hs : Authority.ofSettings m.settings = .ok a)
    (ha : m.authority = a) {text : String} {s : Signer} (h : m.provenSigner text = .ok s) :
    s.SpeaksFor a := by
  obtain ⟨signer, ht, h⟩ := bind_eq_ok.1 h
  obtain ⟨probe, hp, h⟩ := bind_eq_ok.1 h
  split at h
  · rename_i hv
    cases h
    have hmagic : s.magic = a.magic := by
      rw [Authority.magic_ofSettings hs]
      exact Signer.magic_ofText ht
    obtain ⟨signature, hs, rfl⟩ := Message.sign_eq_ok.1 hp
    rw [ha] at hv
    exact Signer.speaksFor_of_verify hmagic hs hv
  · cases h

namespace Gated

theorem of_start {settings : Settings} {limits : Limits} {store : Store} {m : Manager}
    (hs : store.SignedBy a) (ha : Authority.ofSettings settings = .ok a)
    (h : start settings limits store = .ok m) : m.Gated a := by
  unfold start at h
  rw [ha] at h
  cases h
  refine ⟨ha, rfl, ?_, ?_, ?_, hs⟩
  · rintro s ⟨⟩
  · intro id msg h
    simp [message?] at h
  · intro hash msg h
    simp [byHash?] at h

theorem insert {m : Manager} (hm : m.Gated a) {msg : Message} (hv : msg.verifies a = true) :
    (m.insert msg).Gated a := by
  refine ⟨hm.settings, hm.authority, hm.signer, ?_, ?_, hm.stored⟩
  · intro id held h
    rw [message?_insert] at h
    split at h
    · cases h
      exact hv
    · exact hm.active id held h
  · intro hash held h
    rw [byHash?_insert] at h
    split at h
    · cases h
      exact hv
    · exact hm.byHash hash held h

theorem withStore {m : Manager} (hm : m.Gated a) {store : Store} (hs : store.SignedBy a) :
    { m with store := store }.Gated a :=
  ⟨hm.settings, hm.authority, hm.signer, hm.active, hm.byHash, hs⟩

theorem withGovernor {m : Manager} (hm : m.Gated a) (governor : Governor) :
    { m with governor := governor }.Gated a :=
  ⟨hm.settings, hm.authority, hm.signer, hm.active, hm.byHash, hm.stored⟩

theorem withSigner {m : Manager} (hm : m.Gated a) {s : Signer} (hs : s.SpeaksFor a) :
    { m with signer? := some s }.Gated a := by
  refine ⟨hm.settings, hm.authority, ?_, hm.active, hm.byHash, hm.stored⟩
  rintro s' ⟨⟩
  exact hs

theorem holding {m : Manager} (hm : m.Gated a) {msg : Message} (hv : msg.verifies a = true) :
    (m.holding msg).Gated a :=
  (hm.insert hv).withStore (hm.stored.written hv)

theorem withRecord {m : Manager} (hm : m.Gated a) (p : Parameter) : (m.withRecord p).Gated a := by
  unfold Manager.withRecord
  split
  · rename_i msg h
    exact hm.insert (hm.stored.read h)
  · exact hm

theorem load {m : Manager} (hm : m.Gated a) : m.load.state.Gated a := by
  rw [load_state]
  induction Parameter.all generalizing m with
  | nil => exact hm
  | cons p rest ih => exact ih (hm.withRecord p)

/-- The message checked is the one that the holder's authority checks, and that is `a`. -/
theorem process {m : Manager} (hm : m.Gated a) (w : World) (peer : PeerId) (msg : Message) :
    (m.process w peer msg).state.Gated a := by
  rw [process_state]
  split
  · rename_i ht
    have hv : msg.verifies a = true := by
      rw [takes, Bool.and_eq_true, hm.authority] at ht
      exact ht.2
    exact (hm.holding hv).withGovernor _
  · exact hm

theorem provenSigner {m : Manager} (hm : m.Gated a) {text : String} {s : Signer}
    (h : m.provenSigner text = .ok s) : s.SpeaksFor a :=
  speaksFor_of_provenSigner hm.settings hm.authority h

theorem setKey {m : Manager} (hm : m.Gated a) (text : String) : (m.setKey text).state.Gated a := by
  rw [setKey_state]
  split
  · exact hm
  · rename_i s h
    exact hm.withSigner (hm.provenSigner h)

/-- Nothing is checked here, as the signer was when it was installed. -/
theorem update {m : Manager} (hm : m.Gated a) (w : World) (p : Parameter) (value : Int64) :
    (m.update w p value).state.Gated a := by
  rw [update_state]
  split
  · exact hm
  · rename_i msg h
    unfold signedUpdate at h
    split at h
    · cases h
    · rename_i s hs
      exact hm.holding (Message.verifies_of_sign (hm.signer s hs) h)

theorem restart {m : Manager} (hm : m.Gated a) (limits : Limits) :
    (m.restart limits).state.Gated a := by
  unfold Manager.restart
  split
  · exact hm
  · rename_i fresh h
    exact (of_start hm.stored hm.settings h).load

theorem perform {m : Manager} (hm : m.Gated a) (op : Operation) : (m.perform op).state.Gated a := by
  cases op with
  | process w peer msg => exact hm.process w peer msg
  | sendAll peer => exact hm
  | update w p value => exact hm.update w p value
  | setKey text => exact hm.setKey text
  | load => exact hm.load
  | restart limits => exact hm.restart limits
  | outage fault? =>
    have hs : Store.SignedBy { m.store with fault? := fault? } a := hm.stored
    exact hm.withStore hs

theorem run {m : Manager} (hm : m.Gated a) (ops : List Operation) : (m.run ops).Gated a :=
  run_invariant (fun _ op hm => hm.perform op) hm ops

/-- A store's own settings were good once, so a restart never fails. -/
theorem restart_reply {m : Manager} (hm : m.Gated a) (limits : Limits) :
    ∃ count, (m.restart limits).reply = .ok count := by
  unfold Manager.restart start
  rw [hm.settings]
  exact ⟨_, rfl⟩

end Gated

/-- After any run from an empty store, all that is in force, known by its hash or stored verifies
under the authority that was configured, and the manager can be made anew. Nothing is asked of the
signature scheme. -/
theorem signed_after_run {settings : Settings} {limits : Limits} {fresh : Manager}
    (h : start settings limits .empty = .ok fresh) (ops : List Operation) :
    Authority.ofSettings settings = .ok (fresh.run ops).authority ∧
    (∀ id msg, (fresh.run ops).message? id = some msg →
      msg.verifies (fresh.run ops).authority = true) ∧
    (∀ hash msg, (fresh.run ops).byHash? hash = some msg →
      msg.verifies (fresh.run ops).authority = true) ∧
    (∀ key record : Bytes, (fresh.run ops).store.records[key]? = some record →
      ∃ msg, Message.decode record = .ok msg ∧
        msg.verifies (fresh.run ops).authority = true) ∧
    ∀ limits', ∃ count, ((fresh.run ops).restart limits').reply = .ok count := by
  obtain ⟨a, ha, -⟩ := bind_eq_ok.1 h
  have hg := (Gated.of_start Store.signedBy_empty ha h).run ops
  have he := hg.authority
  refine ⟨?_, ?_, ?_, ?_, hg.restart_reply⟩
  · rw [he, ha]
  · rw [he]
    exact hg.active
  · rw [he]
    exact hg.byHash
  · rw [he]
    exact hg.stored

end Manager

end

/-- A message is taken and stored, an update has no key to go by, and the store outlives the
manager. -/
theorem signed_after_run_open :
    let m := openManager.run [.process openWorld ⟨1⟩ openMessage, .setKey "",
      .update openWorld .fixHeight 1, .restart .default]
    Manager.start openSettings .default .empty = .ok openManager ∧
    openManager.takes openMessage = true ∧
    ∀ key record : Bytes, m.store.records[key]? = some record →
      ∃ msg, Message.decode record = .ok msg ∧ msg.verifies m.authority = true :=
  ⟨start_open, openManager_takes, (Manager.signed_after_run start_open _).2.2.2.1⟩

end SporkNode.Spork
