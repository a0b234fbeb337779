import Floodgate.Proofs.Admission.Footprint

/-!
# Requests that are bound to other resources

A `VisitRun` is a run of requests under fixed rules. Each request has a number; it arrives at a time
of its own with a draw of its own, and may come back later. Take some of the requests out of such a
run. If no resource that they are bound to is one that a remaining request is bound to, nobody
notices: the others get the same answers, down to the handles of their permits, and their resources
and breakers end up the same.

`VisitRun.Shadows` compares the two runs, step by step. A request that stays is decided within its
footprint, where the runs agree; one that is left out works elsewhere. For the way back it must be
known what a permit names, so that is a part of the comparison.
-/

set_option autoImplicit false

namespace Floodgate

/-- What a request does: it arrives, or its permit comes back. -/
inductive Visit where
  | enter (request : Nat) (identity : Identity) (now : Nat) (draw : Float)
  /-- With the outcome of the request, or without. -/
  | leave (request : Nat) (success : Option Bool) (now : Nat)

/-- The number of the request. -/
def Visit.request : Visit → Nat
  | enter request .. => request
  | leave request .. => request

/-- A gate, the permits that are out, and all answers so far, each with the number of its
request. -/
structure VisitRun where
  gate : Gate
  out : List (Nat × Permit) := []
  answers : List (Nat × Admission) := []

namespace VisitRun

/-- A gate with its rules, before any request. -/
def start (book : RuleBook) (slotMs retained : Nat) : VisitRun :=
  { gate := Gate.new book (StatStore.new slotMs retained) { now := 0 } }

/-- The gate at a time. Times need not go forward: a run may visit the past. -/
def gateAt (run : VisitRun) (now : Nat) : Gate :=
  { run.gate with clock := run.gate.clock.set now }

/-- The run after one visit. A request without a permit gives none back. -/
def step (run : VisitRun) : Visit → VisitRun
  | .enter request identity now draw =>
    let (answer, gate) := (run.gateAt now).enter identity draw
    { gate
      out := run.out ++ (answer.permit?.map fun p => (request, p)).toList
      answers := run.answers ++ [(request, answer)] }
  | .leave request success now =>
    match run.out.find? fun held => held.1 = request with
    | some (_, p) =>
      { run with
        gate := (run.gateAt now).finish p success
        out := run.out.eraseP fun held => held.1 = request }
    | none => run

def after (run : VisitRun) (visits : List Visit) : VisitRun := visits.foldl step run

/-! ## Two runs -/

/-- The resources that the chosen requests are bound to. They are known before the run starts, since
the rules are fixed. -/
def boundBy (book : RuleBook) (chosen : Nat → Bool) (visits : List Visit) : Set Resource :=
  {r | ∃ request identity now draw, Visit.enter request identity now draw ∈ visits ∧
    chosen request = true ∧ r ∈ Gate.bound book identity}

/-- A run without the requests that are not chosen is to the chosen ones as the run with them: they
get the same answers, and at some resources all is the same. -/
structure SameFor (chosen : Nat → Bool) (Q : Set Resource) (whole part : VisitRun) : Prop where
  answers : part.answers = whole.answers.filter fun answer => chosen answer.1
  series : ∀ r ∈ Q, part.gate.stats.get? r = whole.gate.stats.get? r
  inFlight : ∀ r ∈ Q, part.gate.stats.inFlight r = whole.gate.stats.inFlight r
  window : ∀ r ∈ Q, ∀ start stop,
    part.gate.stats.window r start stop = whole.gate.stats.window r start stop
  breaker : ∀ r ∈ Q, part.gate.breakers.get? r = whole.gate.breakers.get? r

/-- The invariant of the two runs. It says more than `SameFor`: the permits that are out must be
known too, with what they hold, since a request that was decided on one side may come back at any
time. -/
structure Shadows (book : RuleBook) (chosen : Nat → Bool) (Q : Set Resource)
    (whole part : VisitRun) : Prop where
  gate : Gate.AgreeOn book Q whole.gate part.gate
  out : part.out = whole.out.filter fun held => chosen held.1
  answers : part.answers = whole.answers.filter fun answer => chosen answer.1
  inside : ∀ {request t}, (request, .tracked t) ∈ whole.out → chosen request = true → t.held ⊆ Q
  outside : ∀ {request t}, (request, .tracked t) ∈ whole.out → chosen request = false →
    Disjoint t.held Q

end VisitRun

/-! ## One visit -/

namespace Gate

variable {book : RuleBook} {Q : Set Resource} {g g' : Gate}

/-- A permit names no resource but those that its request is bound to. So a permit comes back to
where its request was decided, as long as the rules are the same. -/
theorem held_subset_bound {identity : Identity} {now : Nat} {draw : Float} {t : Tracked}
    (hbook : g.book = book)
    (ht : (g.enterAt identity now draw).1.permit? = some (.tracked t)) :
    t.held ⊆ bound book identity := by
  have hanswer := g.answer_enterAt identity now draw
  rintro r hr
  generalize (g.enterAt identity now draw).1 = a at hanswer ht
  generalize (g.enterAt identity now draw).2 = g' at hanswer
  -- only two of the four answers come with a permit
  cases hanswer with
  | overLimit limited => cases ht
  | unguarded limited verdict =>
    cases ht
    rw [hbook] at limited
    obtain ⟨hres, hkey⟩ := Limiter.lease_of_allowed limited
    rcases hr with rfl | rfl | ⟨h, hh, -⟩
    · exact Or.inl hres
    · exact Or.inl hkey
    · cases hh
  | guarded limited verdict =>
    cases ht
    rw [hbook] at limited verdict
    obtain ⟨hres, hkey⟩ := Limiter.lease_of_allowed limited
    rcases hr with rfl | rfl | ⟨h, hh, rfl⟩
    · exact Or.inl hres
    · exact Or.inl hkey
    · cases hh
      exact Or.inr (key_of_permit (by rw [verdict]; rfl))
  | broken limited verdict => cases ht

end Gate

namespace VisitRun

variable {book : RuleBook} {chosen : Nat → Bool} {Q : Set Resource} {whole part : VisitRun}

/-- With a clock that works, a visit is one call of `enterAt` and some filing. -/
theorem step_enter {run : VisitRun} (hf : run.gate.clock.failing = false) (request : Nat)
    (identity : Identity) (now : Nat) (draw : Float) :
    run.step (.enter request identity now draw) =
      let answered := (run.gateAt now).enterAt identity now draw
      { gate := answered.2
        out := run.out ++ (answered.1.permit?.map fun p => (request, p)).toList
        answers := run.answers ++ [(request, answered.1)] } := by
  have henter := Gate.enter_of_working (g := run.gateAt now) hf identity draw
  unfold step
  dsimp only
  rw [henter]
  rfl

theorem gateAt_finish {run : VisitRun} (hf : run.gate.clock.failing = false) (now : Nat)
    (t : Tracked) (success : Option Bool) :
    (run.gateAt now).finish (.tracked t) success = (run.gateAt now).finishAt t success now :=
  Gate.finish_of_working (g := run.gateAt now) hf t success

namespace Shadows

theorem gateAt (h : Shadows book chosen Q whole part) (now : Nat) :
    Gate.AgreeOn book Q (whole.gateAt now) (part.gateAt now) :=
  { h.gate with working := h.gate.working }

theorem gateAt_left (h : Shadows book chosen Q whole part) (now : Nat) :
    Gate.AgreeOn book Q (whole.gateAt now) part.gate := { h.gate with working := h.gate.working }

/-- A permit that has just been given is filed like all others. -/
theorem mem_append {request request' : Nat} {a : Admission} {t : Tracked}
    (ht : (request', Permit.tracked t) ∈
      whole.out ++ (a.permit?.map fun p => (request, p)).toList) :
    (request', .tracked t) ∈ whole.out ∨
      (request' = request ∧ a.permit? = some (.tracked t)) := by
  rcases List.mem_append.mp ht with hlive | hnew
  · exact Or.inl hlive
  · obtain ⟨p, hp, heq⟩ := Option.map_eq_some_iff.mp (Option.mem_toList.mp hnew)
    cases heq
    exact Or.inr ⟨rfl, hp⟩

/-- **A request that stays is decided alike in both runs.** What it is bound to lies where they
agree, and its footprint does the rest. -/
theorem enter_chosen (h : Shadows book chosen Q whole part) {request : Nat} {identity : Identity}
    (hchosen : chosen request = true) (hbound : Gate.bound book identity ⊆ Q) (now : Nat)
    (draw : Float) :
    Shadows book chosen Q (whole.step (.enter request identity now draw))
      (part.step (.enter request identity now draw)) := by
  obtain ⟨hanswer, hgate⟩ :=
    (Gate.footprint_enterAt book identity now draw).congr hbound (h.gateAt now)
  have hheld {t : Tracked} (ht : ((whole.gateAt now).enterAt identity now draw).1.permit? =
      some (.tracked t)) : t.held ⊆ Q :=
    (Gate.held_subset_bound (g := whole.gateAt now) h.gate.books.1 ht).trans hbound
  rw [step_enter h.gate.working.1, step_enter h.gate.working.2]
  dsimp only
  -- the gates agree by congruence, and the same entry goes into the lists of either run
  refine ⟨?_, ?_, ?_, fun {request' t} ht hc => ?_, fun {request' t} ht hc => ?_⟩
  · dsimp only
    exact hgate
  · rw [← hanswer, List.filter_append, h.out]
    cases ((whole.gateAt now).enterAt identity now draw).1.permit? with
    | none => rfl
    | some p => simp [hchosen]
  · rw [← hanswer, List.filter_append, h.answers]
    simp [hchosen]
  · rcases mem_append ht with hlive | ⟨-, hnew⟩
    · exact h.inside hlive hc
    · exact hheld hnew
  · rcases mem_append ht with hlive | ⟨rfl, -⟩
    · exact h.outside hlive hc
    · rw [hchosen] at hc
      cases hc

/-- **A request that is left out leaves the agreement alone.** The run without it does not move at
all. -/
theorem enter_other (h : Shadows book chosen Q whole part) {request : Nat} {identity : Identity}
    (hother : chosen request = false) (hbound : Disjoint (Gate.bound book identity) Q) (now : Nat)
    (draw : Float) :
    Shadows book chosen Q (whole.step (.enter request identity now draw)) part := by
  have hgate := (Gate.footprint_enterAt book identity now draw).frame hbound (h.gateAt_left now)
  have hheld {t : Tracked} (ht : ((whole.gateAt now).enterAt identity now draw).1.permit? =
      some (.tracked t)) : Disjoint t.held Q :=
    hbound.mono_left (Gate.held_subset_bound (g := whole.gateAt now) h.gate.books.1 ht)
  rw [step_enter h.gate.working.1]
  dsimp only
  -- the gates agree by the frame, and the filter drops whatever this request has added
  refine ⟨?_, ?_, ?_, fun {request' t} ht hc => ?_, fun {request' t} ht hc => ?_⟩
  · dsimp only
    exact hgate
  · rw [List.filter_append, h.out]
    cases ((whole.gateAt now).enterAt identity now draw).1.permit? with
    | none => simp
    | some p => simp [hother]
  · rw [List.filter_append, h.answers]
    simp [hother]
  · rcases mem_append ht with hlive | ⟨rfl, -⟩
    · exact h.inside hlive hc
    · rw [hother] at hc
      cases hc
  · rcases mem_append ht with hlive | ⟨-, hnew⟩
    · exact h.outside hlive hc
    · exact hheld hnew

/-- A request that stays finds the same permit in both runs, for only permits of others are missing.
-/
theorem find?_out (h : Shadows book chosen Q whole part) {request : Nat}
    (hchosen : chosen request = true) :
    part.out.find? (fun held => held.1 = request) =
      whole.out.find? fun held => held.1 = request := by
  rw [h.out, List.find?_filter]
  congr 1
  funext held
  by_cases hat : held.1 = request
  · simp [hat, hchosen]
  · simp [hat]

/-- A permit of a request that stays comes back alike in both runs. It was given alike, and what it
holds lies where they agree. -/
theorem leave_chosen (h : Shadows book chosen Q whole part) {request : Nat}
    (hchosen : chosen request = true) (success : Option Bool) (now : Nat) :
    Shadows book chosen Q (whole.step (.leave request success now))
      (part.step (.leave request success now)) := by
  unfold step
  dsimp only
  rw [h.find?_out hchosen]
  cases hfound : whole.out.find? fun held => held.1 = request with
  | none => exact h
  | some held =>
    obtain ⟨request', p⟩ := held
    have hmem := List.mem_of_find?_eq_some hfound
    obtain rfl : request' = request := by simpa using List.find?_some hfound
    dsimp only
    refine ⟨?_, ?_, h.answers, fun ht => h.inside (List.mem_of_mem_eraseP ht),
      fun ht => h.outside (List.mem_of_mem_eraseP ht)⟩
    · cases p with
      | untracked => exact h.gateAt now
      | tracked t =>
        rw [gateAt_finish h.gate.working.1, gateAt_finish h.gate.working.2]
        exact ((Gate.footprint_finishAt book t success now).congr (h.inside hmem hchosen)
          (h.gateAt now)).2
    · -- what is taken off the list is a permit of a request that stays, so filtering first is no
      -- different
      have hsame : (fun held : Nat × Permit => decide (held.1 = request') && chosen held.1) =
          fun held => decide (held.1 = request') := by
        funext held
        by_cases hat : held.1 = request'
        · simp [hat, hchosen]
        · simp [hat]
      dsimp only
      rw [h.out, List.eraseP_filter, hsame]

/-- To take a permit of a request that was left out off the list changes nothing for those that
stay. -/
theorem filter_eraseP_other {request : Nat} (hother : chosen request = false)
    (out : List (Nat × Permit)) :
    (out.eraseP fun held => held.1 = request).filter (fun held => chosen held.1) =
      out.filter fun held => chosen held.1 := by
  induction out with
  | nil => rfl
  | cons held out ih =>
    by_cases hat : held.1 = request
    · simp [hat, hother]
    · simp [hat, ih, List.filter_cons]

/-- A permit of a request that was left out comes back outside, since all that it holds lies there.
-/
theorem leave_other (h : Shadows book chosen Q whole part) {request : Nat}
    (hother : chosen request = false) (success : Option Bool) (now : Nat) :
    Shadows book chosen Q (whole.step (.leave request success now)) part := by
  unfold step
  dsimp only
  cases hfound : whole.out.find? fun held => held.1 = request with
  | none => exact h
  | some held =>
    obtain ⟨request', p⟩ := held
    have hmem := List.mem_of_find?_eq_some hfound
    obtain rfl : request' = request := by simpa using List.find?_some hfound
    dsimp only
    refine ⟨?_, h.out.trans (filter_eraseP_other hother whole.out).symm, h.answers,
      fun ht => h.inside (List.mem_of_mem_eraseP ht),
      fun ht => h.outside (List.mem_of_mem_eraseP ht)⟩
    cases p with
    | untracked => exact h.gateAt_left now
    | tracked t =>
      rw [gateAt_finish h.gate.working.1]
      exact (Gate.footprint_finishAt book t success now).frame (h.outside hmem hother)
        (h.gateAt_left now)

end Shadows

/-! ## Runs -/

/-- What a visit of the chosen requests is bound to lies inside, all else outside. -/
def Divides (book : RuleBook) (chosen : Nat → Bool) (Q : Set Resource) (v : Visit) : Prop :=
  ∀ request identity now draw, v = .enter request identity now draw →
    (chosen request = true → Gate.bound book identity ⊆ Q) ∧
      (chosen request = false → Disjoint (Gate.bound book identity) Q)

theorem Shadows.step (h : Shadows book chosen Q whole part) {v : Visit}
    (hv : Divides book chosen Q v) :
    Shadows book chosen Q (whole.step v) (part.after ([v].filter fun v => chosen v.request)) := by
  cases v with
  | enter request identity now draw =>
    obtain ⟨hinside, houtside⟩ := hv request identity now draw rfl
    cases hc : chosen request with
    | true =>
      simp only [List.filter_cons, Visit.request, hc]
      exact h.enter_chosen hc (hinside hc) now draw
    | false =>
      simp only [List.filter_cons, Visit.request, hc]
      exact h.enter_other hc (houtside hc) now draw
  | leave request success now =>
    cases hc : chosen request with
    | true =>
      simp only [List.filter_cons, Visit.request, hc]
      exact h.leave_chosen hc success now
    | false =>
      simp only [List.filter_cons, Visit.request, hc]
      exact h.leave_other hc success now

/-- The invariant holds at every point of the two runs. The induction goes along the visits of the
whole run, and the other run makes a step only for those that stay. -/
theorem Shadows.after {visits : List Visit} (hvisits : ∀ v ∈ visits, Divides book chosen Q v) :
    ∀ {whole part : VisitRun}, Shadows book chosen Q whole part →
      Shadows book chosen Q (whole.after visits)
        (part.after (visits.filter fun v => chosen v.request)) := by
  induction visits with
  | nil => exact id
  | cons v visits ih =>
    intro whole part h
    have hrest := ih (fun v' hv' => hvisits v' (List.mem_cons_of_mem v hv'))
      (h.step (hvisits v List.mem_cons_self))
    rw [VisitRun.after, VisitRun.after, VisitRun.after, ← List.foldl_append,
      ← List.filter_append] at hrest
    exact hrest

theorem Shadows.sameFor (h : Shadows book chosen Q whole part) : SameFor chosen Q whole part where
  answers := h.answers
  series _ hr := (h.gate.stats.get? hr).symm
  inFlight _ hr := (h.gate.stats.inFlight hr).symm
  window _ hr start stop := (h.gate.stats.window hr start stop).symm
  breaker r hr := by
    rw [Registry.get?, Registry.get?, Roster.current?, Roster.current?, h.gate.breakers hr]

theorem shadows_start (book : RuleBook) (slotMs retained : Nat) (chosen : Nat → Bool)
    (Q : Set Resource) : Shadows book chosen Q (start book slotMs retained)
      (start book slotMs retained) where
  gate := {
    books := ⟨rfl, rfl⟩
    working := ⟨rfl, rfl⟩
    stats := ⟨rfl, fun _ => rfl⟩
    breakers := fun _ => rfl
    seated := ⟨Registry.Seated.empty.reconcile book, Registry.Seated.empty.reconcile book⟩ }
  out := rfl
  answers := rfl
  inside ht := absurd ht List.not_mem_nil
  outside ht := absurd ht List.not_mem_nil

/-- Where the two sets of resources have nothing in common, every visit is on one side or the other.
-/
theorem sameFor_of_disjoint (book : RuleBook) (slotMs retained : Nat) {visits : List Visit}
    (hapart : Disjoint (boundBy book chosen visits) (boundBy book (fun n => !chosen n) visits)) :
    SameFor chosen (boundBy book chosen visits) ((start book slotMs retained).after visits)
      ((start book slotMs retained).after (visits.filter fun v => chosen v.request)) := by
  refine (Shadows.after ?_ (shadows_start book slotMs retained chosen _)).sameFor
  rintro v hv request identity now draw rfl
  refine ⟨fun hc r hr => ⟨request, identity, now, draw, hv, hc, hr⟩, fun hc => ?_⟩
  have hother : (!chosen request) = true := by rw [hc]; rfl
  exact (hapart.mono_right fun r hr => ⟨request, identity, now, draw, hv, hother, hr⟩).symm

end VisitRun

/-! ## Services under the rules of the service default -/

/-- The resource of the service of a request, if it has one. -/
def Identity.service? (i : Identity) : Option Resource :=
  i.candidates.find? fun c => c.scope = .service

/-- The rule of the service default is the only one, and enabled. -/
def RuleTable.IsDefaultOnly {R : Type} [Rule R] (t : RuleTable R) : Prop :=
  ∃ e, t.toList = [e] ∧ Rule.enabled e.rule = true ∧ Rule.resource e.rule = .serviceDefault

/-- A request of a service is held against the rule of the service default, and is bound to its
service. No rule applies to a request of no service. -/
theorem RuleTable.IsDefaultOnly.bind_firstEnabled? {R : Type} [Rule R] {t : RuleTable R}
    (h : t.IsDefaultOnly) (ht : t.Consistent) (i : Identity) :
    ((t.firstEnabled? i.candidates).map fun e => (Rule.resource e.rule).bind i.candidates) =
      i.service? := by
  obtain ⟨e, hlist, henabled, hres⟩ := h
  have hfound : t.enabled? .serviceDefault = some e := by
    have hmem : e ∈ t.toList := by rw [hlist]; exact List.mem_singleton_self e
    rw [← hres]
    exact (mem_toList_enabled_iff ht e).mp ⟨hmem, henabled⟩
  have hother : ∀ r, r ≠ .serviceDefault → t.enabled? r = none := by
    intro r hne
    cases hr : t.enabled? r with
    | none => rfl
    | some e' =>
      have hkey := ht.keyed_enabled hr
      have hmem : e' ∈ t.toList := (mem_toList_iff ht e').mpr (hkey ▸ get?_of_enabled? hr)
      rw [hlist, List.mem_singleton] at hmem
      exact absurd (hkey.symm.trans (hmem ▸ hres)) hne
  rw [firstEnabled?_eq_findSome?, Identity.service?]
  -- all candidates but the service default are passed over, and that is bound to the one before it
  rcases i.candidates_cases with hi | ⟨paths, name, hpaths, hi⟩
  · rw [hi, List.findSome?_singleton, hother .global Resource.noConfusion]
    rfl
  · have hnone : paths.findSome? t.enabled? = none :=
      List.findSome?_eq_none_iff.mpr fun r hr => hother r fun heq => by
        have hscope := hpaths r hr
        rw [heq] at hscope
        cases hscope
    have hbound : Resource.serviceDefault.bind
        (paths ++ [Resource.service name, .serviceDefault, .global]) = .service name :=
      Resource.bind_serviceDefault hpaths name
    have hsome : (paths ++ [Resource.service name, .serviceDefault, .global]).findSome? t.enabled? =
        some e := by
      rw [List.findSome?_append, hnone, Option.none_or, List.findSome?_cons,
        hother (.service name) Resource.noConfusion, List.findSome?_cons, hfound]
    rw [hi, hsome, Option.map_some, hres, hbound, List.find?_append]
    have hno : (paths.find? fun c => c.scope = .service) = none :=
      List.find?_eq_none.mpr fun r hr => by simp [hpaths r hr]
    rw [hno]
    rfl

/-- Under the rules of the service default alone, all that a request is bound to is the resource of
its service, and the global one if it has none. -/
theorem Gate.eq_of_mem_bound {book : RuleBook} (hb : book.Consistent)
    (hlimits : book.limits.IsDefaultOnly) (hdegrades : book.degrades.IsDefaultOnly) {i : Identity}
    {r : Resource} (hr : r ∈ bound book i) : r = i.service?.getD .global := by
  rcases hr with rfl | hguarded
  · rw [← hlimits.bind_firstEnabled? hb.limits i, Limiter.limited, Limiter.resolve, Option.map_map]
    rfl
  · have hservice : i.service? = some r :=
      (hdegrades.bind_firstEnabled? hb.degrades i).symm.trans hguarded
    rw [hservice, Option.getD_some]

theorem Identity.service?_ne_global {i : Identity} : i.service? ≠ some .global := fun h => by
  have hscope := List.find?_some h
  cases hscope

namespace VisitRun

variable {book : RuleBook} {chosen : Nat → Bool}

/-- Of two requests of one service both are chosen or none. Requests of no service go together, for
they are all counted under the global resource. -/
def ByService (chosen : Nat → Bool) (visits : List Visit) : Prop :=
  ∀ {request identity now draw request' identity' now' draw'},
    Visit.enter request identity now draw ∈ visits →
    Visit.enter request' identity' now' draw' ∈ visits →
    identity.service? = identity'.service? → chosen request = chosen request'

/-- Requests of different services are bound to different resources, if there are no rules but those
of the service default. -/
theorem disjoint_of_byService (hb : book.Consistent) (hlimits : book.limits.IsDefaultOnly)
    (hdegrades : book.degrades.IsDefaultOnly) {visits : List Visit}
    (hchosen : ByService chosen visits) :
    Disjoint (boundBy book chosen visits) (boundBy book (fun n => !chosen n) visits) := by
  rw [Set.disjoint_left]
  rintro r ⟨request, identity, now, draw, hv, hc, hr⟩
    ⟨request', identity', now', draw', hv', hc', hr'⟩
  have hsame : identity.service?.getD .global = identity'.service?.getD .global :=
    (Gate.eq_of_mem_bound hb hlimits hdegrades hr).symm.trans
      (Gate.eq_of_mem_bound hb hlimits hdegrades hr')
  -- no service is the global resource, so having no service cannot be confused with having one
  have hservice : identity.service? = identity'.service? := by
    cases hs : identity.service? with
    | none =>
      cases hs' : identity'.service? with
      | none => rfl
      | some r' =>
        rw [hs, hs', Option.getD_none, Option.getD_some] at hsame
        rw [← hsame] at hs'
        exact absurd hs' Identity.service?_ne_global
    | some r =>
      cases hs' : identity'.service? with
      | none =>
        rw [hs, hs', Option.getD_none, Option.getD_some] at hsame
        rw [hsame] at hs
        exact absurd hs Identity.service?_ne_global
      | some r' =>
        rw [hs, hs'] at hsame
        exact congrArg some hsame
  -- requests of one service go together, but one of these is chosen and the other is not
  have hboth := hchosen hv hv' hservice
  rw [hc] at hboth
  dsimp only at hc'
  rw [← hboth] at hc'
  cases hc'

/-- **Requests that are bound to other resources are invisible.** Take requests out of a run, none
of which is bound to a resource that a remaining request is bound to: the remaining requests get
the same answers, and their resources and breakers are the same in the end. So it is with the
requests of other services where the rules of the service default are the only rules. -/
theorem other_requests_are_invisible (changes : List RuleChange) (slotMs retained : Nat)
    (visits : List Visit) (chosen : Nat → Bool) :
    let book := RuleBook.ofChanges changes
    let whole := (start book slotMs retained).after visits
    let part := (start book slotMs retained).after (visits.filter fun v => chosen v.request)
    (Disjoint (boundBy book chosen visits) (boundBy book (fun n => !chosen n) visits) →
      SameFor chosen (boundBy book chosen visits) whole part) ∧
    (book.limits.IsDefaultOnly → book.degrades.IsDefaultOnly → ByService chosen visits →
      SameFor chosen (boundBy book chosen visits) whole part) := by
  intro book whole part
  have hb : book.Consistent := RuleBook.consistent_ofChanges changes
  refine ⟨sameFor_of_disjoint book slotMs retained, fun hlimits hdegrades hchosen => ?_⟩
  exact sameFor_of_disjoint book slotMs retained
    (disjoint_of_byService hb hlimits hdegrades hchosen)

/-- One service has an error, and another does not notice. Both are held against the rules of the
service default, which are rules for each service by itself. -/
theorem other_requests_are_invisible_services :
    let limit : LimitRule := { resource := .serviceDefault, concurrency := some 1 }
    let degrade : DegradeRule := { resource := .serviceDefault, strategy := .totalErrors 1 }
    let changes := [.rateLimit (.upsert limit), .degrade (.upsert degrade)]
    let book := RuleBook.ofChanges changes
    let visits := [.enter 0 { service := "shop" } 5 0.5, .enter 1 { service := "bank" } 6 0.5,
      .leave 0 (some false) 7]
    let chosen : Nat → Bool := fun n => n == 1
    let whole := (start book 1000 10).after visits
    let part := (start book 1000 10).after (visits.filter fun v => chosen v.request)
    Disjoint (boundBy book chosen visits) (boundBy book (fun n => !chosen n) visits) ∧
      part.answers = whole.answers.filter (fun answer => chosen answer.1) ∧
      SameFor chosen (boundBy book chosen visits) whole part := by
  intro limit degrade changes book visits chosen whole part
  have hlimits : book.limits.IsDefaultOnly := ⟨⟨1, limit⟩, rfl, rfl, rfl⟩
  have hdegrades : book.degrades.IsDefaultOnly := ⟨⟨2, degrade⟩, rfl, rfl, rfl⟩
  have hvisits : ∀ {request identity now draw}, Visit.enter request identity now draw ∈ visits →
      (request = 0 ∧ identity.service? = some (.service "shop")) ∨
        (request = 1 ∧ identity.service? = some (.service "bank")) := by
    intro request identity now draw hv
    rcases List.mem_cons.mp hv with heq | hv
    · cases heq
      exact Or.inl ⟨rfl, by decide +kernel⟩
    · rcases List.mem_cons.mp hv with heq | hv
      · cases heq
        exact Or.inr ⟨rfl, by decide +kernel⟩
      · cases List.mem_singleton.mp hv
  -- of two requests of different services nothing has to be shown
  have hchosen : ByService chosen visits := by
    intro request identity now draw request' identity' now' draw' hv hv' hsame
    have hne : some (Resource.service "shop") ≠ some (.service "bank") := by decide
    rcases hvisits hv with ⟨rfl, hs⟩ | ⟨rfl, hs⟩ <;>
      rcases hvisits hv' with ⟨rfl, hs'⟩ | ⟨rfl, hs'⟩
    · rfl
    · exact absurd (hs.symm.trans (hsame.trans hs')) hne
    · exact absurd (hs.symm.trans (hsame.trans hs')) hne.symm
    · rfl
  have hapart := disjoint_of_byService (RuleBook.consistent_ofChanges changes) hlimits hdegrades
    hchosen
  obtain ⟨hbound, hservices⟩ := other_requests_are_invisible changes 1000 10 visits chosen
  exact ⟨hapart, (hbound hapart).answers, hservices hlimits hdegrades hchosen⟩

end VisitRun
end Floodgate
