import SporkNode.Spork.Governor

/-!
The governor over a sequence of requests. All that it remembers is the last execution, and only an
execution changes that. So two executions are as many intervals apart as there are executions from
the one to the other, however the clock is set in between, and a request that is not carried out
might as well not have been made.
-/

namespace SporkNode.Spork.Governor

/-! ## One request -/

theorem bounds_of_decide {g : Governor} {blocks now : Int} {n : Nat}
    (h : g.decide blocks now = .execute n) :
    blocks = n ∧ 1 ≤ n ∧ n ≤ g.limits.maxBlocks := by
  unfold Governor.decide at h
  split at h
  · cases h
  · split at h
    · cases h
    · split at h
      · cases h
      · cases h
        omega

theorem interval_le_of_decide {g : Governor} {blocks now last : Int} {n : Nat}
    (h : g.decide blocks now = .execute n) (hlast : g.last? = some last) :
    g.limits.minInterval ≤ now - last := by
  unfold Governor.decide at h
  split at h
  · cases h
  · split at h
    · cases h
    · rename_i hcalm
      simpa [hurry?, hlast] using hcalm

/-- A request is carried out as it was made, a whole interval after the last, and its time is kept;
or the governor stays. -/
theorem request_cases (g : Governor) (blocks now : Int) :
    (∃ n : Nat, g.request blocks now = ({ g with last? := some now }, .execute n) ∧
      blocks = n ∧ 1 ≤ n ∧ n ≤ g.limits.maxBlocks ∧
      ∀ last, g.last? = some last → g.limits.minInterval ≤ now - last) ∨
    ((g.request blocks now).1 = g ∧ ∀ n, (g.request blocks now).2 ≠ .execute n) := by
  unfold request
  cases hd : g.decide blocks now with
  | execute n =>
    obtain ⟨hblocks, hpos, hle⟩ := bounds_of_decide hd
    exact .inl ⟨n, rfl, hblocks, hpos, hle, fun last => interval_le_of_decide hd⟩
  | ignored | tooSoon | tooDeep => exact .inr ⟨rfl, nofun⟩

/-! ## Requests in turn -/

structure Request where
  blocks : Int
  now : Int
  deriving DecidableEq, Repr

/-- A request and the decision on it. -/
structure Ruling where
  request : Request
  decision : Decision
  deriving DecidableEq, Repr

def Ruling.executed (x : Ruling) : Bool :=
  match x.decision with
  | .execute _ => true
  | _ => false

theorem Ruling.not_executed {x : Ruling} (h : ∀ n, x.decision ≠ .execute n) :
    x.executed = false := by
  unfold executed
  split
  · exact absurd ‹_› (h _)
  · rfl

def rule (g : Governor) (r : Request) : Ruling := ⟨r, (g.request r.blocks r.now).2⟩

def next (g : Governor) (r : Request) : Governor := (g.request r.blocks r.now).1

/-- The governor after a sequence of requests. -/
def run (g : Governor) (requests : List Request) : Governor := requests.foldl next g

def rulings (g : Governor) : List Request → List Ruling
  | [] => []
  | r :: rest => g.rule r :: (g.next r).rulings rest

variable {g : Governor} {r : Request} {requests : List Request}

theorem next_of_executed (h : (g.rule r).executed = true) :
    g.next r = { g with last? := some r.now } := by
  rcases g.request_cases r.blocks r.now with ⟨n, hrequest, -⟩ | ⟨-, hnone⟩
  · rw [next, hrequest]
  · rw [Ruling.not_executed hnone] at h
    cases h

theorem next_of_not_executed (h : (g.rule r).executed = false) : g.next r = g := by
  rcases g.request_cases r.blocks r.now with ⟨n, hrequest, -⟩ | ⟨hsame, -⟩
  · rw [rule, hrequest] at h
    cases h
  · exact hsame

theorem interval_le_of_executed (h : (g.rule r).executed = true) {last : Int}
    (hlast : g.last? = some last) : g.limits.minInterval ≤ r.now - last := by
  rcases g.request_cases r.blocks r.now with ⟨n, -, -, -, -, hcalm⟩ | ⟨-, hnone⟩
  · exact hcalm last hlast
  · rw [Ruling.not_executed hnone] at h
    cases h

@[simp] theorem next_limits (g : Governor) (r : Request) : (g.next r).limits = g.limits := by
  cases h : (g.rule r).executed with
  | true => rw [next_of_executed h]
  | false => rw [next_of_not_executed h]

@[simp] theorem map_request_rulings (g : Governor) (requests : List Request) :
    (g.rulings requests).map (·.request) = requests := by
  induction requests generalizing g with
  | nil => rfl
  | cons r rest ih => simp [rulings, rule, ih]

theorem rulings_take (g : Governor) (requests : List Request) (k : Nat) :
    g.rulings (requests.take k) = (g.rulings requests).take k := by
  induction requests generalizing g k with
  | nil => simp [rulings]
  | cons r rest ih => cases k <;> simp [rulings, ih]

theorem bounds_of_mem_rulings {x : Ruling} (hx : x ∈ g.rulings requests) {n : Nat}
    (hn : x.decision = .execute n) :
    x.request.blocks = n ∧ 1 ≤ n ∧ n ≤ g.limits.maxBlocks := by
  induction requests generalizing g with
  | nil => cases hx
  | cons r rest ih =>
    rcases List.mem_cons.1 hx with rfl | hx
    · rcases g.request_cases r.blocks r.now with ⟨n', hrequest, hblocks, hpos, hle, -⟩ | ⟨-, hnone⟩
      · rw [rule, hrequest] at hn
        cases hn
        exact ⟨hblocks, hpos, hle⟩
      · exact absurd hn (hnone n)
    · simpa using ih hx

theorem run_last? (g : Governor) (requests : List Request) :
    (g.run requests).last? =
      (((g.rulings requests).filter Ruling.executed).getLast?.map (·.request.now)).or g.last? := by
  induction requests generalizing g with
  | nil => rfl
  | cons r rest ih =>
    rw [run, List.foldl_cons, ← run, ih, rulings]
    cases h : (g.rule r).executed with
    | true =>
      rw [next_of_executed h, List.filter_cons_of_pos h, List.getLast?_cons]
      -- a later execution, if there is one, is the last in both
      cases ((({ g with last? := some r.now } : Governor).rulings rest).filter
        Ruling.executed).getLast? <;> rfl
    | false => rw [next_of_not_executed h, List.filter_cons_of_neg (by simp [h])]

/-- Each execution takes the time of the next one an interval further from the last one before. -/
theorem interval_mul_le_of_last {last : Int} (hlast : g.last? = some last)
    {between later : List Ruling} {y : Ruling}
    (h : g.rulings requests = between ++ y :: later) (hy : y.executed = true) :
    (between.countP Ruling.executed + 1) * g.limits.minInterval ≤ y.request.now - last := by
  induction requests generalizing g last between with
  | nil => exact absurd h.symm (by simp [rulings])
  | cons r rest ih =>
    rw [rulings] at h
    cases between with
    | nil =>
      obtain ⟨rfl, -⟩ := List.cons.inj h
      simpa [rule] using interval_le_of_executed hy hlast
    | cons x between =>
      obtain ⟨rfl, hrest⟩ := List.cons.inj h
      cases hx : (g.rule r).executed with
      | true =>
        have hfirst := interval_le_of_executed hx hlast
        have hsince := ih (by rw [next_of_executed hx]) hrest
        rw [next_limits] at hsince
        rw [List.countP_cons_of_pos hx]
        push_cast
        rw [Int.add_mul, Int.one_mul]
        omega
      | false =>
        rw [next_of_not_executed hx] at hrest
        rw [List.countP_cons_of_neg (by simp [hx])]
        exact ih hlast hrest

theorem interval_mul_le {earlier between later : List Ruling} {x y : Ruling}
    (h : g.rulings requests = earlier ++ x :: (between ++ y :: later))
    (hx : x.executed = true) (hy : y.executed = true) :
    (between.countP Ruling.executed + 1) * g.limits.minInterval ≤
      y.request.now - x.request.now := by
  induction requests generalizing g earlier with
  | nil => exact absurd h.symm (by simp [rulings])
  | cons r rest ih =>
    rw [rulings] at h
    cases earlier with
    | nil =>
      obtain ⟨rfl, hrest⟩ := List.cons.inj h
      have hlast : (g.next r).last? = some r.now := by rw [next_of_executed hx]
      simpa [rule] using interval_mul_le_of_last hlast hrest hy
    | cons _ earlier =>
      obtain ⟨-, hrest⟩ := List.cons.inj h
      simpa using ih hrest

theorem rulings_eraseIdx {k : Nat}
    (h : ∀ x, (g.rulings requests)[k]? = some x → x.executed = false) :
    g.rulings (requests.eraseIdx k) = (g.rulings requests).eraseIdx k := by
  induction requests generalizing g k with
  | nil => rfl
  | cons r rest ih =>
    cases k with
    | zero =>
      have hsame : g.next r = g := next_of_not_executed (h _ rfl)
      simp [rulings, hsame]
    | succ k => simpa [rulings] using ih (by simpa [rulings] using h)

/-- Whatever is asked in turn, at whatever times: from one execution to a later one there pass as
many intervals as it is executions later; what is carried out is what was asked, and within the
limit; the governor always knows the time of the latest execution; and to leave out a request that
was not carried out makes no difference to the others. -/
theorem requests_rationed (limits : Limits) (requests : List Request) :
    let rulings := (new limits).rulings requests
    rulings.map (·.request) = requests ∧
    (∀ earlier x between y later, rulings = earlier ++ x :: (between ++ y :: later) →
      x.executed = true → y.executed = true →
      (between.countP Ruling.executed + 1) * limits.minInterval ≤
        y.request.now - x.request.now) ∧
    (∀ x ∈ rulings, ∀ n, x.decision = .execute n →
      x.request.blocks = n ∧ 1 ≤ n ∧ n ≤ limits.maxBlocks) ∧
    (∀ k, ((new limits).run (requests.take k)).last? =
      ((rulings.take k).filter Ruling.executed).getLast?.map (·.request.now)) ∧
    ∀ k, (∀ x, rulings[k]? = some x → x.executed = false) →
      (new limits).rulings (requests.eraseIdx k) = rulings.eraseIdx k := by
  refine ⟨map_request_rulings _ _, ?_, ?_, ?_, ?_⟩
  · intro earlier x between y later h hx hy
    exact interval_mul_le h hx hy
  · intro x hx n hn
    exact bounds_of_mem_rulings hx hn
  · intro k
    rw [run_last?, rulings_take]
    exact Option.or_none
  · intro k h
    exact rulings_eraseIdx h

/-- Three executions, with a clock that is set back, a request too deep and an idle one between. -/
theorem requests_rationed_set_back :
    let requests : List Request :=
      [⟨10, 1000⟩, ⟨10, 1599⟩, ⟨577, 1700⟩, ⟨5, 1600⟩, ⟨5, 900⟩, ⟨0, 9000⟩, ⟨576, 2200⟩]
    let rulings := (new .default).rulings requests
    rulings.map (·.decision) =
      [.execute 10, .tooSoon 599, .tooDeep 577, .execute 5, .tooSoon (-700), .ignored,
        .execute 576] ∧
    (1 + 1 : Int) * 600 ≤ 2200 - 1000 ∧
    ((new .default).run (requests.take 6)).last? = some 1600 ∧
    (new .default).rulings (requests.eraseIdx 4) = rulings.eraseIdx 4 := by
  intro requests rulings
  obtain ⟨-, hapart, -, hlast, hleft⟩ := requests_rationed .default requests
  refine ⟨by decide, ?_, ?_, ?_⟩
  · exact hapart [] ⟨⟨10, 1000⟩, .execute 10⟩ ((rulings.drop 1).take 5)
      ⟨⟨576, 2200⟩, .execute 576⟩ [] (by decide) rfl rfl
  · rw [hlast]
    decide
  · exact hleft 4 (by decide)

end SporkNode.Spork.Governor
