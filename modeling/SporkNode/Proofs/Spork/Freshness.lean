import SporkNode.Proofs.Spork.Operation

/-!
When what is in force is replaced, and by what. A peer's message takes the place of one that was
signed before it and of no other. The node's own update looks at nothing: it takes the place of
whatever is held, with the time that its clock shows. So messages are replaced by newer ones only,
and their times never fall, exactly in the runs whose updates all find the clock past the message
that they replace.
-/

namespace SporkNode.Spork

open Signature

/-- The time that a message signed at this clock bears. -/
def Clock.stamp (c : Clock) : Int64 := Int64.ofInt c.adjusted

/-- Whether the manager goes on with what it holds. Loading and restarting set it up anew. -/
def Operation.Live : Operation → Prop
  | .load | .restart _ => False
  | _ => True

/-- What was held is held still, or has made way for a message signed later. -/
def Supersedes (after before : Option Message) : Prop :=
  after = before ∨ ∃ msg, after = some msg ∧ ∀ held, before = some held → held.time < msg.time

namespace Supersedes

theorem refl (held? : Option Message) : Supersedes held? held? := .inl rfl

theorem time_le {after before : Option Message} (h : Supersedes after before) {held : Message}
    (hb : before = some held) : ∃ later, after = some later ∧ held.time ≤ later.time := by
  rcases h with rfl | ⟨msg, ha, hnew⟩
  · exact ⟨held, hb, Int64.le_refl _⟩
  · exact ⟨msg, ha, Int64.le_of_lt (hnew held hb)⟩

end Supersedes

namespace Manager

section

variable [Scheme]

/-- The operation replaces nothing but by something newer. -/
def Fresh (m : Manager) (op : Operation) : Prop :=
  ∀ id, Supersedes ((m.perform op).state.message? id) (m.message? id)

/-- The operation is an update that signs another message than the one held while the clock is not
past that one's time. -/
def SetsBack (m : Manager) (op : Operation) : Prop :=
  ∃ w p value held msg, op = .update w p value ∧ m.message? p.id = some held ∧
    m.signedUpdate w p value = .ok msg ∧ msg ≠ held ∧ w.clock.stamp ≤ held.time

/-- Each operation of a run has the property in the state that it meets. -/
def Along (P : Manager → Operation → Prop) : Manager → List Operation → Prop
  | _, [] => True
  | m, op :: ops => P m op ∧ (m.perform op).state.Along P ops

theorem along_congr {P Q : Manager → Operation → Prop} {ops : List Operation}
    (h : ∀ m, ∀ op ∈ ops, P m op ↔ Q m op) (m : Manager) : m.Along P ops ↔ m.Along Q ops := by
  induction ops generalizing m with
  | nil => exact Iff.rfl
  | cons op ops ih =>
    have hrest := ih fun m op hop => h m op (List.mem_cons_of_mem _ hop)
    exact and_congr (h m op List.mem_cons_self) (hrest _)

/-! ## One operation -/

theorem signedUpdate_eq {m : Manager} {s : Signer} (h : m.signer? = some s) (w : World)
    (p : Parameter) (value : Int64) :
    m.signedUpdate w p value = (Message.unsigned p.id value w.clock.stamp).sign s := by
  unfold signedUpdate
  rw [h]
  rfl

theorem signedUpdate_eq_ok {m : Manager} {w : World} {p : Parameter} {value : Int64}
    {msg : Message} (h : m.signedUpdate w p value = .ok msg) :
    msg.id = p.id ∧ msg.value = value ∧ msg.time = w.clock.stamp := by
  unfold signedUpdate at h
  split at h
  · cases h
  · exact Message.of_sign h

/-- An update that signs puts its message in force, whatever was there. -/
theorem update_message? {m : Manager} {w : World} {p : Parameter} {value : Int64} {msg : Message}
    (h : m.signedUpdate w p value = .ok msg) (id : Int32) :
    (m.update w p value).state.message? id = if p.id = id then some msg else m.message? id := by
  rw [update_state, h]
  simp only [message?_holding, (signedUpdate_eq_ok h).1]

theorem perform_update_message? {m : Manager} {w : World} {p : Parameter} {value : Int64}
    {msg : Message} (h : m.signedUpdate w p value = .ok msg) :
    (m.perform (.update w p value)).state.message? p.id = some msg := by
  show (m.update w p value).state.message? p.id = some msg
  rw [update_message? h, if_pos rfl]

theorem process_supersedes (m : Manager) (w : World) (peer : PeerId) (msg : Message) (id : Int32) :
    Supersedes ((m.process w peer msg).state.message? id) (m.message? id) := by
  rw [process_message?]
  split
  · rename_i ht
    obtain ⟨htakes, rfl⟩ := ht
    exact .inr ⟨msg, rfl, (takes_iff.1 htakes).1⟩
  · exact .refl _

theorem setKey_eq_of_proven {m : Manager} {text : String} {s : Signer}
    (h : m.provenSigner text = .ok s) :
    m.setKey text = ⟨{ m with signer? := some s }, .ok (),
      [Effect.note .info "Spork signing key installed" []]⟩ := by
  unfold provenSigner at h
  unfold setKey
  dsimp only
  rw [h]

theorem setKey_message? (m : Manager) (text : String) (id : Int32) :
    (m.setKey text).state.message? id = m.message? id := by
  rw [setKey_state]
  split <;> rfl

theorem fresh_update_iff {m : Manager} {w : World} {p : Parameter} {value : Int64} :
    m.Fresh (.update w p value) ↔
      ∀ held msg, m.message? p.id = some held → m.signedUpdate w p value = .ok msg →
        msg ≠ held → held.time < w.clock.stamp := by
  constructor
  · intro hfresh held msg hheld hmsg hne
    have h : Supersedes ((m.update w p value).state.message? p.id) (m.message? p.id) := hfresh p.id
    rw [update_message? hmsg, if_pos rfl, hheld] at h
    rcases h with h | ⟨_, ⟨⟩, hnew⟩
    · exact absurd (Option.some.inj h) hne
    · rw [← (signedUpdate_eq_ok hmsg).2.2]
      exact hnew held rfl
  · intro hclock id
    show Supersedes ((m.update w p value).state.message? id) (m.message? id)
    cases hmsg : m.signedUpdate w p value with
    | error e =>
      rw [update_state, hmsg]
      exact .refl _
    | ok msg =>
      rw [update_message? hmsg]
      split
      · rename_i hid
        subst hid
        by_cases hsame : m.message? p.id = some msg
        · exact .inl hsame.symm
        · refine .inr ⟨msg, rfl, ?_⟩
          intro held hheld
          rw [(signedUpdate_eq_ok hmsg).2.2]
          apply hclock held msg hheld hmsg
          rintro rfl
          exact hsame hheld
      · exact .refl _

/-- The clock is the only thing that can spoil it, and only under an update. -/
theorem fresh_iff {m : Manager} {op : Operation} (hop : op.Live) :
    m.Fresh op ↔ ¬ m.SetsBack op := by
  cases op with
  | process w peer msg =>
    refine iff_of_true (m.process_supersedes w peer msg) ?_
    rintro ⟨_, _, _, _, _, ⟨⟩, -⟩
  | sendAll peer =>
    refine iff_of_true (fun id => .refl _) ?_
    rintro ⟨_, _, _, _, _, ⟨⟩, -⟩
  | setKey text =>
    refine iff_of_true (fun id => .inl (m.setKey_message? text id)) ?_
    rintro ⟨_, _, _, _, _, ⟨⟩, -⟩
  | outage fault? =>
    refine iff_of_true (fun id => .refl _) ?_
    rintro ⟨_, _, _, _, _, ⟨⟩, -⟩
  | update w p value =>
    rw [fresh_update_iff]
    constructor
    · rintro hclock ⟨_, _, _, held, msg, ⟨⟩, hheld, hmsg, hne, hle⟩
      exact Int64.not_lt.2 hle (hclock held msg hheld hmsg hne)
    · intro hback held msg hheld hmsg hne
      apply Int64.not_le.1
      intro hle
      exact hback ⟨w, p, value, held, msg, rfl, hheld, hmsg, hne, hle⟩
  | load => exact hop.elim
  | restart limits => exact hop.elim

/-! ## Runs -/

theorem time_le_run {m : Manager} {ops : List Operation} (h : m.Along Fresh ops) {id : Int32}
    {held : Message} (hheld : m.message? id = some held) :
    ∃ later, (m.run ops).message? id = some later ∧ held.time ≤ later.time := by
  induction ops generalizing m held with
  | nil => exact ⟨held, hheld, Int64.le_refl _⟩
  | cons op ops ih =>
    obtain ⟨next, hnext, hle⟩ := (h.1 id).time_le hheld
    obtain ⟨later, hlater, hle'⟩ := ih h.2 hnext
    exact ⟨later, hlater, Int64.le_trans hle hle'⟩

/-- In any state and for any run of a manager in being: all that is replaced is replaced by what
was signed later, just if no update of the run meets a message that its clock is not past. Then
the times of what is in force never fall. -/
theorem fresh_along_iff (m : Manager) {ops : List Operation} (hlive : ∀ op ∈ ops, op.Live) :
    (m.Along Fresh ops ↔ m.Along (fun m op => ¬ m.SetsBack op) ops) ∧
    (m.Along Fresh ops → ∀ id held, m.message? id = some held →
      ∃ later, (m.run ops).message? id = some later ∧ held.time ≤ later.time) :=
  ⟨along_congr (fun _ op hop => fresh_iff (hlive op hop)) m, fun h _ _ => time_le_run h⟩

end

end Manager

/-! ## The holder of the open network's key -/

/-- The secret one, as text. -/
def openSecret : String := "8QbWzFC4L2U3oJRsM7ApnsW9PD6hfdEWuFenv727gpUi4aoNUD6"

def openSigner : Signer := ⟨⟨⟨1, by decide, by decide⟩, false⟩, defaultMagic⟩

theorem ofText_open : Signer.ofText openSecret openSettings = .ok openSigner := by decide +kernel

theorem openSigner_speaksFor : openSigner.SpeaksFor openAuthority :=
  ⟨⟨Curve.generator, false⟩, rfl, by decide +kernel, rfl⟩

theorem openSigner_signs_probe : ((Message.unsigned 0 0 0).sign openSigner).isOk = true := by
  decide +kernel

/-- The first manager of the open network once it has the key. -/
def openMaster : Manager := { openManager with signer? := some openSigner }

theorem provenSigner_open : openManager.provenSigner openSecret = .ok openSigner := by
  obtain ⟨probe, hprobe⟩ := isOk_iff.1 openSigner_signs_probe
  have hverifies : probe.verifies openManager.authority = true :=
    Message.verifies_of_sign openSigner_speaksFor hprobe
  refine bind_eq_ok.2 ⟨openSigner, ofText_open, bind_eq_ok.2 ⟨probe, hprobe, ?_⟩⟩
  rw [if_pos hverifies]
  rfl

theorem openMaster_takes : openMaster.takes openMessage = true := by
  unfold Manager.takes
  rw [show openMaster.authority = openAuthority from rfl, openMessage_verifies]
  rfl

/-- The very second in which the open message was signed. -/
def openSecond : World := ⟨⟨1600000000, 0⟩, fun _ => none⟩

theorem openSigner_signs_rival :
    ((Message.unsigned 10004 7 1600000000).sign openSigner).isOk = true := by
  decide +kernel

/-- The open manager after it was given its key and a peer's message. -/
def openHolder : Manager := openManager.run [.setKey openSecret, .process openWorld ⟨1⟩ openMessage]

theorem openHolder_eq : openHolder = (openMaster.process openWorld ⟨1⟩ openMessage).state := by
  have hrun : ∀ (m : Manager) (text : String) (w : World) (peer : PeerId) (msg : Message),
      m.run [.setKey text, .process w peer msg] =
        ((m.setKey text).state.process w peer msg).state := fun _ _ _ _ _ => rfl
  rw [openHolder, hrun, Manager.setKey_eq_of_proven provenSigner_open, openMaster]

theorem openHolder_message? : openHolder.message? 10004 = some openMessage := by
  rw [openHolder_eq, Manager.process_message?, if_pos ⟨openMaster_takes, rfl⟩]

theorem openHolder_signer : openHolder.signer? = some openSigner := by
  rw [openHolder_eq, Manager.process_state, if_pos openMaster_takes]
  rfl

/-- A replay and a request for all sporks set nothing back. -/
theorem fresh_along_iff_replay :
    let ops : List Operation := [.process openWorld ⟨2⟩ openMessage, .sendAll ⟨3⟩]
    (∀ op ∈ ops, op.Live) ∧ openHolder.Along Manager.Fresh ops ∧
    ∃ later, (openHolder.run ops).message? 10004 = some later ∧ openMessage.time ≤ later.time := by
  intro ops
  have hlive : ∀ op ∈ ops, op.Live := by
    intro op hop
    simp only [ops, List.mem_cons, List.not_mem_nil, or_false] at hop
    obtain rfl | rfl := hop <;> exact trivial
  obtain ⟨hiff, htimes⟩ := Manager.fresh_along_iff openHolder hlive
  have hfresh : openHolder.Along Manager.Fresh ops := by
    refine hiff.2 ⟨?_, ?_, trivial⟩
    · rintro ⟨_, _, _, _, _, ⟨⟩, -⟩
    · rintro ⟨_, _, _, _, _, ⟨⟩, -⟩
  exact ⟨hlive, hfresh, htimes hfresh 10004 openMessage openHolder_message?⟩

/-- An update within the second of the message held: it makes way for one that is no newer. -/
theorem update_within_second :
    Manager.start openSettings .default .empty = .ok openManager ∧
    openHolder = openManager.run [.setKey openSecret, .process openWorld ⟨1⟩ openMessage] ∧
    openHolder.message? 10004 = some openMessage ∧
    (∃ msg, (openHolder.perform (.update openSecond .instantSendMaxValue 7)).state.message? 10004 =
        some msg ∧ msg.value = 7 ∧ msg.time = openMessage.time) ∧
    ¬ openHolder.Fresh (.update openSecond .instantSendMaxValue 7) := by
  obtain ⟨msg, hmsg⟩ := isOk_iff.1 openSigner_signs_rival
  have hupdate : openHolder.signedUpdate openSecond .instantSendMaxValue 7 = .ok msg := by
    rw [Manager.signedUpdate_eq openHolder_signer]
    exact hmsg
  obtain ⟨-, hvalue, htime⟩ := Manager.signedUpdate_eq_ok hupdate
  refine ⟨start_open, rfl, openHolder_message?, ⟨msg, ?_, hvalue, htime⟩, ?_⟩
  · exact Manager.perform_update_message? hupdate
  · rw [Manager.fresh_update_iff]
    intro hclock
    have hne : msg ≠ openMessage := by
      rintro rfl
      exact absurd hvalue (by decide)
    exact absurd (hclock openMessage msg openHolder_message? hupdate hne) (by decide)

end SporkNode.Spork
