import Floodgate.Breaker.Registry
import Floodgate.Proofs.Rule.Batch
import Floodgate.Proofs.Rule.Thresholds
import Mathlib.Data.List.Induction

/-!
# What listeners hear of documents

A document is idle if it is refused, or if it leaves the set of rules in force as it is. Whether it
is idle is said in terms of plain sets of rules (`RawRule.IsIdle`), and without regard to what a
loader reports; a loader reports a change exactly if the document is not idle
(`Loader.read?_eq_none_iff`). The two sets are compared by their members. That is finer than
`SameRules`, and can be, because the rule that a document puts in force is the same as no other
rule.

What listeners are told is kept in a journal (`Loader.noting`), by listeners that do what those of
the loader do and write down that they were called. Along a list of documents the version goes up
with each document that is not idle, and every listener hears of each version once, one after
another.
-/

set_option autoImplicit false

universe u

namespace Floodgate

/-! ## A change takes effect exactly if it changes the set of rules -/

namespace RuleTable

variable {R : Type} [Rule R] {t t' : RuleTable R} {u : RuleUpdate R} {serial : Nat}

/-- An entered rule was not there before, a removed rule is there no more. -/
theorem not_mem_iff_of_change?_eq_some (ht : t.Consistent) (hu : u.IsExact)
    (h : t.change? serial u = some t') : ¬ ∀ x, x ∈ u.onSet t.rules ↔ x ∈ t.rules := by
  intro hsame
  rcases change?_eq_some_cases h with ⟨rule, rfl, -, hnew⟩ | ⟨id, resource, r, rfl, hr, hsome, -⟩
  · obtain ⟨e, he, heq⟩ := (mem_rules_iff ht rule).mp ((hsame rule).mp List.mem_cons_self)
    have hdiffers := hnew e he
    rw [(hu e.rule).mpr heq] at hdiffers
    cases hdiffers
  · obtain ⟨e, he⟩ := Option.isSome_iff_exists.mp hsome
    have hkept := (hsame e.rule).mpr (mem_rules_of_get? ht he)
    rw [mem_onSet_delete ht, hr, ht.keyed he] at hkept
    exact hkept.2 rfl

variable [LawfulRule R]

theorem mem_onSet_iff_of_change?_eq_none (ht : t.Consistent) (hu : u.IsExact)
    (h : t.change? serial u = none) (x : R) : x ∈ u.onSet t.rules ↔ x ∈ t.rules := by
  rcases change?_eq_none_cases h with ⟨rule, e, rfl, he, hsame⟩ | ⟨id, resource, rfl, hnone⟩
  · rw [RuleUpdate.onSet, List.mem_cons, List.mem_filter]
    constructor
    · rintro (rfl | ⟨hx, -⟩)
      · exact (hu e.rule).mp hsame ▸ mem_rules_of_get? ht he
      · exact hx
    · intro hx
      cases hc : Rule.competes x rule with
      | true => exact .inl ((hu x).mp (beq_of_competes ht he hsame hx hc))
      | false => exact .inr ⟨hx, rfl⟩
  · rw [mem_onSet_delete ht]
    refine ⟨And.left, fun hx => ⟨hx, fun htarget => ?_⟩⟩
    obtain ⟨e, he, -⟩ := (mem_rules_iff ht x).mp hx
    rw [hnone _ htarget] at he
    cases he

theorem change?_eq_none_iff (ht : t.Consistent) (hu : u.IsExact) :
    t.change? serial u = none ↔ ∀ x, x ∈ u.onSet t.rules ↔ x ∈ t.rules := by
  cases h : t.change? serial u with
  | none => exact iff_of_true rfl (mem_onSet_iff_of_change?_eq_none ht hu h)
  | some t' => exact iff_of_false nofun (not_mem_iff_of_change?_eq_some ht hu h)

end RuleTable

/-! ## Idle documents -/

/-- The rules of a book as two plain sets. -/
def RuleBook.plain (b : RuleBook) : PlainBook where
  limits := b.limits.rules
  degrades := b.degrades.rules

/-- The same rules are in either pair of sets. -/
def PlainBook.SameMembers (s s' : PlainBook) : Prop :=
  (∀ x, x ∈ s.limits ↔ x ∈ s'.limits) ∧ ∀ x, x ∈ s.degrades ↔ x ∈ s'.degrades

/-- A document is refused, or leaves the rules of a book as they are. -/
def RawRule.IsIdle (raw : RawRule) (book : RuleBook) : Prop :=
  ∀ c, raw.parse = .ok c → (book.plain.after c).SameMembers book.plain

namespace RuleBook

variable {book book' : RuleBook} {raw : RawRule} {c : RuleChange}

theorem change?_eq_none_iff (hb : book.Consistent) (hc : raw.parse = .ok c) :
    book.change? c = none ↔ (book.plain.after c).SameMembers book.plain := by
  cases c with
  | rateLimit u =>
    rw [change?, changeLimit?, Option.map_eq_none_iff,
      RuleTable.change?_eq_none_iff hb.limits u.isExact_limit]
    exact ⟨fun hsame => ⟨hsame, fun x => Iff.rfl⟩, And.left⟩
  | degrade u =>
    rw [change?, changeDegrade?, Option.map_eq_none_iff,
      RuleTable.change?_eq_none_iff hb.degrades (RawRule.isExact_of_parse hc)]
    exact ⟨fun hsame => ⟨fun x => Iff.rfl, hsame⟩, And.right⟩

theorem sameMembers_change (hb : book.Consistent) (h : book.change? c = some book') :
    book'.plain.SameMembers (book.plain.after c) := by
  rcases change?_eq_some_cases h with ⟨u, t, rfl, ht, rfl⟩ | ⟨u, t, rfl, ht, rfl⟩
  · exact ⟨RuleTable.mem_rules_change_iff hb.limits ht, fun x => Iff.rfl⟩
  · exact ⟨fun x => Iff.rfl, RuleTable.mem_rules_change_iff hb.degrades ht⟩

end RuleBook

namespace Loader

variable {book book' : RuleBook} {raw : RawRule}

/-- **A loader takes a document for a change exactly if it is one.** What a change is, is said of
the plain sets, without a word about tables. -/
theorem read?_eq_none_iff (hb : book.Consistent) : read? book raw = none ↔ raw.IsIdle book := by
  cases hparse : raw.parse with
  | error e =>
    refine iff_of_true (by rw [read?, hparse]) fun c hc => ?_
    rw [hparse] at hc
    cases hc
  | ok c =>
    have hread : read? book raw = book.change? c := by rw [read?, hparse]
    rw [hread, RuleBook.change?_eq_none_iff hb hparse]
    refine ⟨fun hsame c' hc' => ?_, fun hidle => hidle c hparse⟩
    rw [hparse] at hc'
    cases hc'
    exact hsame

end Loader

/-! ## The journal of calls -/

/-- That a listener is told of a change: which of them, and what it is told. -/
structure Notice where
  listener : Nat
  kind : RuleKind
  book : RuleBook

variable {σ : Type u}

/-- A listener that does the same, and writes down that it was called. -/
def Listener.noted (i : Nat) (f : Listener σ) : Listener (σ × List Notice) := fun kind book s =>
  (f kind book s.1, s.2 ++ [{ listener := i, kind, book }])

namespace Loader

/-- The loader whose listeners write down that they were called. -/
def noting (l : Loader σ) : Loader (σ × List Notice) where
  listeners := l.listeners.mapIdx Listener.noted

/-- All listeners being told of one change, one after another. -/
def notices (l : Loader σ) (kind : RuleKind) (book : RuleBook) : List Notice :=
  (List.range l.listeners.length).map fun i => { listener := i, kind, book }

theorem notify_noting (l : Loader σ) (kind : RuleKind) (book : RuleBook) (s : σ)
    (journal : List Notice) :
    l.noting.notify kind book (s, journal) =
      (l.notify kind book s, journal ++ l.notices kind book) := by
  obtain ⟨fs⟩ := l
  -- from the last listener, as the journal is written at its end
  induction fs using List.reverseRecOn with
  | nil => simp [noting, notify, notices]
  | append_singleton fs f ih =>
    simp only [noting, notify, notices] at ih ⊢
    rw [List.mapIdx_concat, List.foldl_append, List.foldl_append, ih]
    simp [Listener.noted, List.range_succ]

/-! ## Lists of documents -/

theorem applyAll_cons (l : Loader σ) (raw : RawRule) (raws : List RawRule) (state : RuleBook × σ) :
    l.applyAll (raw :: raws) state =
      let (changed, state) := l.apply raw state
      let (count, state) := l.applyAll raws state
      (if changed then count + 1 else count, state) := rfl

theorem consistent_applyAll (l : Loader σ) (raws : List RawRule) {state : RuleBook × σ}
    (h : state.1.Consistent) : (l.applyAll raws state).2.1.Consistent := by
  rw [l.book_applyAll]
  exact RuleBook.Consistent.foldl_after h

/-- The version goes up by the number of documents that are reported to change the rules. -/
theorem version_applyAll (l : Loader σ) (raws : List RawRule) (book : RuleBook) (s : σ) :
    (l.applyAll raws (book, s)).2.1.version = book.version + (l.applyAll raws (book, s)).1 := by
  induction raws generalizing book s with
  | nil => rfl
  | cons raw raws ih =>
    rw [applyAll_cons]
    rcases l.apply_cases raw book s with ⟨book', hread, happly⟩ | ⟨-, happly⟩
    · simp only [happly, if_true]
      rw [ih, version_of_read? hread]
      omega
    · simp only [happly, Bool.false_eq_true, if_false]
      exact ih book s

/-- Writing the journal changes nothing else. -/
theorem applyAll_noting (l : Loader σ) (raws : List RawRule) (book : RuleBook) (s : σ)
    (journal : List Notice) :
    let (count, book', s', _) := l.noting.applyAll raws (book, s, journal)
    l.applyAll raws (book, s) = (count, book', s') := by
  induction raws generalizing book s journal with
  | nil => rfl
  | cons raw raws ih =>
    rw [applyAll_cons, applyAll_cons]
    cases h : read? book raw with
    | none =>
      have hrest := ih book s journal
      rw [l.apply_of_read?_eq_none h, l.noting.apply_of_read?_eq_none h]
      dsimp only at hrest ⊢
      rw [hrest]
    | some book' =>
      have hrest := ih book' (l.notify raw.kind book' s) (journal ++ l.notices raw.kind book')
      rw [l.apply_of_read?_eq_some h, l.noting.apply_of_read?_eq_some h, notify_noting]
      dsimp only at hrest ⊢
      rw [hrest]

/-- Documents that are refused may as well be left out. They change neither the rules nor what
listeners are told. -/
theorem applyAll_filter (l : Loader σ) (raws : List RawRule) (state : RuleBook × σ) :
    l.applyAll (raws.filter fun raw => raw.parse.isOk) state = l.applyAll raws state := by
  induction raws generalizing state with
  | nil => rfl
  | cons raw raws ih =>
    obtain ⟨book, s⟩ := state
    cases hparse : raw.parse with
    | ok c =>
      rw [List.filter_cons_of_pos (by rw [hparse]; rfl), applyAll_cons, applyAll_cons]
      simp only [ih]
    | error e =>
      have hread : read? book raw = none := by rw [read?, hparse]
      rw [List.filter_cons_of_neg (by rw [hparse]; exact Bool.false_ne_true), applyAll_cons,
        l.apply_of_read?_eq_none hread, ih]
      rfl

/-! ### What one listener hears -/

/-- The versions of the books that a listener was shown. -/
def versionsHeard (i : Nat) (journal : List Notice) : List Nat :=
  (journal.filter fun notice => notice.listener = i).map fun notice => notice.book.version

theorem versionsHeard_append (i : Nat) (journal journal' : List Notice) :
    versionsHeard i (journal ++ journal') =
      versionsHeard i journal ++ versionsHeard i journal' := by
  rw [versionsHeard, List.filter_append, List.map_append]
  rfl

/-- Told of a change, each listener hears of it once. -/
theorem versionsHeard_notices (l : Loader σ) (kind : RuleKind) (book : RuleBook) {i : Nat}
    (hi : i < l.listeners.length) : versionsHeard i (l.notices kind book) = [book.version] := by
  have honce : (List.range l.listeners.length).filter (fun j => j = i) = [i] := by
    rw [List.filter_eq, List.count_range, if_pos hi]
    rfl
  rw [versionsHeard, notices, List.filter_map, List.map_map]
  simp only [Function.comp_def]
  rw [honce]
  rfl

/-- A listener hears of consecutive versions, one for each document that is reported to change the
rules. -/
theorem versionsHeard_applyAll (l : Loader σ) (raws : List RawRule) (book : RuleBook) (s : σ)
    (journal : List Notice) {i : Nat} (hi : i < l.listeners.length) :
    let (count, _, _, journal') := l.noting.applyAll raws (book, s, journal)
    versionsHeard i journal' = versionsHeard i journal ++ List.range' (book.version + 1) count := by
  induction raws generalizing book s journal with
  | nil => simp [applyAll]
  | cons raw raws ih =>
    rw [applyAll_cons]
    cases h : read? book raw with
    | none =>
      rw [l.noting.apply_of_read?_eq_none h]
      exact ih book s journal
    | some book' =>
      rw [l.noting.apply_of_read?_eq_some h, notify_noting]
      have hrest := ih book' (l.notify raw.kind book' s) (journal ++ l.notices raw.kind book')
      dsimp only at hrest ⊢
      rw [hrest, versionsHeard_append, l.versionsHeard_notices _ _ hi, version_of_read? h,
        if_pos rfl, List.append_assoc]
      rfl

end Loader

/-! ## The breakers among the listeners -/

/-- The breakers as one of several listeners. -/
def Listener.breakers : Listener (Registry × σ) := fun kind book s =>
  (s.1.onRulesChanged kind book, s.2)

/-- A listener beside the breakers. -/
def Listener.besides (f : Listener σ) : Listener (Registry × σ) := fun kind book s =>
  (s.1, f kind book s.2)

namespace Loader

/-- A loader that tells the breakers, after some other listeners and before others. -/
def withBreakers (before after : List (Listener σ)) : Loader (Registry × σ) where
  listeners := before.map .besides ++ .breakers :: after.map .besides

theorem foldl_besides (fs : List (Listener σ)) (kind : RuleKind) (book : RuleBook) (g : Registry)
    (s : σ) :
    (fs.map Listener.besides).foldl (fun s f => f kind book s) (g, s) =
      (g, fs.foldl (fun s f => f kind book s) s) := by
  induction fs generalizing s with
  | nil => rfl
  | cons f fs ih => exact ih (f kind book s)

theorem notify_withBreakers (before after : List (Listener σ)) (kind : RuleKind) (book : RuleBook)
    (g : Registry) (s : σ) :
    (withBreakers before after).notify kind book (g, s) =
      (g.onRulesChanged kind book,
        ({ listeners := before ++ after } : Loader σ).notify kind book s) := by
  simp only [notify, withBreakers, List.foldl_append, List.foldl_cons, foldl_besides]
  exact foldl_besides after kind book _ _

/-- **What documents do, and what listeners hear of them**, the breakers being one of the listeners.
After any list of documents, one more of them is refused or leaves the rules as they are, and then
nothing at all happens; or it makes of the rules what it makes of plain sets, raises the version by
one, and every listener is called once, in order, with its kind and the new book. So a list of
documents raises the version by the number of documents that were reported, every listener hears of
one version after another, and what is refused might not have been there. -/
theorem documents_are_heard (changes : List RuleChange) (before after : List (Listener σ))
    (g : Registry) (s : σ) (raws : List RawRule) (raw : RawRule) :
    let l := withBreakers before after
    let book := RuleBook.ofChanges changes
    let (count, now, (g', s'), journal) := l.noting.applyAll raws (book, (g, s), [])
    l.applyAll raws (book, g, s) = (count, now, g', s') ∧
    (raw.IsIdle now →
      l.noting.apply raw (now, (g', s'), journal) = (false, now, (g', s'), journal)) ∧
    (¬ raw.IsIdle now → ∃ c next, raw.parse = .ok c ∧
      next.plain.SameMembers (now.plain.after c) ∧ next.version = now.version + 1 ∧
      l.noting.apply raw (now, (g', s'), journal) =
        (true, next, (g'.onRulesChanged raw.kind next,
          ({ listeners := before ++ after } : Loader σ).notify raw.kind next s'),
          journal ++ l.notices raw.kind next)) ∧
    now.version = book.version + count ∧
    (∀ i < l.listeners.length,
      versionsHeard i journal = List.range' (book.version + 1) count) ∧
    l.noting.applyAll (raws.filter fun raw => raw.parse.isOk) (book, (g, s), []) =
      (count, now, (g', s'), journal) := by
  intro l book
  have hsame := l.applyAll_noting raws book (g, s) []
  have hversion := l.noting.version_applyAll raws book ((g, s), [])
  have hheard := fun i hi => l.versionsHeard_applyAll raws book (g, s) [] (i := i) hi
  have hconsistent : (l.noting.applyAll raws (book, (g, s), [])).2.1.Consistent :=
    l.noting.consistent_applyAll raws (RuleBook.consistent_ofChanges changes)
  have hfilter := l.noting.applyAll_filter raws (book, (g, s), [])
  -- the next document is the business of `apply` alone, whatever the run before it
  generalize l.noting.applyAll raws (book, (g, s), []) = run at *
  obtain ⟨count, now, ⟨g', s'⟩, journal⟩ := run
  refine ⟨hsame, fun hidle => ?_, fun hbusy => ?_, hversion, hheard, hfilter⟩
  · exact l.noting.apply_of_read?_eq_none ((read?_eq_none_iff hconsistent).mpr hidle) _
  · obtain ⟨next, hread⟩ := Option.ne_none_iff_exists'.mp
      (mt (read?_eq_none_iff hconsistent).mp hbusy)
    obtain ⟨c, hparse, hchange⟩ := read?_eq_some_iff.mp hread
    refine ⟨c, next, hparse, RuleBook.sameMembers_change hconsistent hchange,
      version_of_read? hread, ?_⟩
    rw [l.noting.apply_of_read?_eq_some hread, notify_noting, notify_withBreakers]

/-- A limit rule that is delivered twice, a document that is refused, and a deletion: the breakers,
and the listener told after them, hear of two versions. -/
theorem documents_are_heard_twice :
    let limit : RawRule :=
      { kind := .rateLimit
        document := .obj [("id", .int 1), ("qps", .int 10), ("resource", .str "_global"),
          ("type", .int 1)] }
    let refused : RawRule :=
      { kind := .rateLimit
        document := .obj [("id", .int 1), ("qps", .str "lots"), ("type", .int 1)] }
    let deletion : RawRule :=
      { kind := .rateLimit, document := .obj [("id", .int 1), ("isDeleted", .int 1)] }
    let l := withBreakers [] [fun _ _ (told : Nat) => told + 1]
    let run := l.noting.applyAll [limit, refused, limit, deletion]
      (RuleBook.ofChanges [], ({}, 0), [])
    run.2.1.version = 2 ∧ versionsHeard 0 run.2.2.2 = [1, 2] ∧ versionsHeard 1 run.2.2.2 = [1, 2] ∧
      run.2.2.1.2 = 2 := by
  intro limit refused deletion l run
  have hcount : run.1 = 2 := by decide +kernel
  have hstart : (RuleBook.ofChanges []).version = 0 := rfl
  obtain ⟨-, -, -, hversion, hheard, -⟩ := documents_are_heard [] []
    [fun _ _ (told : Nat) => told + 1] {} 0 [limit, refused, limit, deletion] refused
  have hversions : ∀ i < 2, versionsHeard i run.2.2.2 = [1, 2] := fun i hi => by
    have hlist := hheard i hi
    rw [hstart] at hlist
    exact hlist.trans (congrArg (List.range' 1) hcount)
  refine ⟨hversion.trans ?_, hversions 0 (by decide), hversions 1 (by decide), by decide +kernel⟩
  rw [hstart, Nat.zero_add]
  exact hcount

end Loader
end Floodgate
