import Floodgate.Proofs.Resource.Canonical
import Floodgate.Resource.Candidates

/-!
# The candidates of a request, in order

`Resource.order` is a total order in which no two resources are equal. The resources that cover a
request come strictly from the greatest to the least, and end with the global one
(`Identity.descending_candidates`). For that one has to know how candidates lie:
`Identity.candidates_shapes` is the inversion. Below a service that is named neither blank nor by a
reserved name, there is at most a path, first as called by the application and then as called by
any.
-/

set_option autoImplicit false

namespace Floodgate

/-! ## A total order -/

instance : Std.TransOrd Scope := inferInstanceAs (Std.TransCmp (compareOn Scope.rank))

theorem Scope.rank_injective {a b : Scope} (h : a.rank = b.rank) : a = b := by
  cases a <;> cases b <;> first | rfl | cases h

instance : Std.LawfulEqOrd Scope where
  compare_self {a} := Nat.compare_eq_eq.mpr (Eq.refl a.rank)
  eq_of_compare h := Scope.rank_injective (Nat.compare_eq_eq.mp h)

namespace Resource

instance : Std.TransCmp order := inferInstanceAs (Std.TransCmp (compareLex _ _))

@[simp] theorem order_self (r : Resource) : order r r = .eq := Std.ReflCmp.compare_self

/-- A resource is given by its scope and its names. -/
theorem eq_of_parts {a b : Resource} (hscope : a.scope = b.scope) (happ : a.app? = b.app?)
    (hservice : a.serviceName? = b.serviceName?) (hpath : a.path? = b.path?) : a = b := by
  cases a <;> cases b <;> simp_all [scope, app?, serviceName?, path?]

instance : Std.LawfulEqCmp order where
  compare_self {r} := order_self r
  eq_of_compare {a b} h := by
    simp only [order, compareLex, compareOn, Ordering.then_eq_eq,
      Std.LawfulEqOrd.compare_eq_iff_eq] at h
    obtain ⟨hscope, happ, hservice, hpath⟩ := h
    exact eq_of_parts hscope happ hservice hpath

theorem eq_of_order_eq {a b : Resource} (h : order a b = .eq) : a = b :=
  Std.LawfulEqCmp.eq_of_compare h

/-- A list of resources that comes strictly from the greatest to the least. -/
def Descending (rs : List Resource) : Prop := rs.Pairwise fun r r' => order r' r = .lt

theorem Descending.nodup {rs : List Resource} (h : Descending rs) : rs.Nodup := by
  refine List.Pairwise.imp (fun {r r'} hlt heq => ?_) h
  rw [heq, order_self] at hlt
  cases hlt

/-- Less specific by scope is less. -/
theorem order_of_rank_lt {a b : Resource} (h : a.scope.rank < b.scope.rank) : order a b = .lt := by
  have hscope : compare a.scope b.scope = .lt := Nat.compare_eq_lt.mpr h
  rw [order, compareLex, compareOn, hscope]
  rfl

/-! ## Names of one service -/

/-- What a service that is named properly makes with an application and a path. -/
theorem ofParts?_of_service {name : String} (hname : Text.nonBlank? name = some name)
    (hfree : isReserved name = false) (app path : Option String) :
    ofParts? app (some name) path =
      match path.bind Text.nonBlank? with
      | some p => some (.api (app.bind Text.nonBlank?) name p)
      | none => if (app.bind Text.nonBlank?).isNone then some (.service name) else none := by
  obtain ⟨hglobal, hdefault⟩ : name ≠ globalName ∧ name ≠ serviceDefaultName := by
    simpa [isReserved] using hfree
  unfold ofParts?
  cases app.bind Text.nonBlank? <;> cases path.bind Text.nonBlank? <;>
    simp [hname, hglobal, hdefault, hfree]

end Resource

/-! ## How candidates lie -/

namespace Identity

/-- What covers a request for a service that is named properly. -/
theorem candidates_of_service {i : Identity} {name : String}
    (hname : Text.nonBlank? i.service = some name) (hfree : Resource.isReserved name = false) :
    i.candidates =
      (match i.path.bind Text.nonBlank? with
        | some p => (i.app.bind Text.nonBlank?).toList.map (fun a => .api (some a) name p) ++
            [.api none name p]
        | none => []) ++ [.service name, .serviceDefault, .global] := by
  have htrimmed := (Text.isTrimmed_of_nonBlank? hname).nonBlank?
  have hservice : Resource.ofParts? none (some i.service) none = some (.service name) := by
    obtain ⟨hglobal, hdefault⟩ : name ≠ Resource.globalName ∧ name ≠ Resource.serviceDefaultName := by
      simpa [Resource.isReserved] using hfree
    simp [Resource.ofParts?, hname, hglobal, hdefault]
  unfold candidates
  simp only [hservice, Resource.ofParts?_of_service htrimmed hfree]
  cases i.path.bind Text.nonBlank? <;> cases i.app.bind Text.nonBlank? <;> simp

/-- A request is covered by the global resource alone, or by what its path makes with its service,
then by the service itself, the service default and the global resource. -/
theorem candidates_shapes (i : Identity) :
    i.candidates = [.global] ∨
      ∃ paths, i.candidates = paths ++ [.service (Text.trim i.service), .serviceDefault, .global] ∧
        Resource.Descending paths ∧ ∀ r ∈ paths, r.scope = .api := by
  cases hservice : Resource.ofParts? none (some i.service) none with
  | none => exact Or.inl (by rw [candidates, hservice])
  | some r =>
    rcases Resource.ofParts?_eq_some_cases hservice with rfl | rfl | ⟨name, hname, hfree, -⟩
    · exact Or.inl (by rw [candidates, hservice])
    · exact Or.inl (by rw [candidates, hservice])
    · rw [candidates_of_service hname hfree]
      obtain ⟨rfl, -⟩ := Text.nonBlank?_eq_some_iff.mp hname
      -- as called by any application comes after as called by one
      have hlt : ∀ a p, Resource.order (.api none (Text.trim i.service) p)
          (.api (some a) (Text.trim i.service) p) = .lt := fun _ _ => rfl
      refine Or.inr ⟨_, rfl, ?_⟩
      cases i.path.bind Text.nonBlank? <;> cases i.app.bind Text.nonBlank? <;>
        simp [Resource.Descending, Resource.scope, hlt]

/-- **The candidates of a request come strictly from the most to the least specific.** -/
theorem descending_candidates (i : Identity) : Resource.Descending i.candidates := by
  rcases i.candidates_shapes with hi | ⟨paths, hi, hpaths, hscope⟩
  · rw [hi]
    exact List.pairwise_singleton _ _
  · rw [hi, Resource.Descending, List.pairwise_append]
    refine ⟨hpaths, ?_, fun r hr r' hr' => ?_⟩
    · simp only [List.pairwise_cons, List.mem_cons, List.not_mem_nil, or_false,
        forall_eq_or_imp, forall_eq, List.Pairwise.nil, and_true, IsEmpty.forall_iff,
        implies_true]
      exact ⟨⟨Resource.order_of_rank_lt (by decide : 1 < 2),
        Resource.order_of_rank_lt (by decide : 0 < 2)⟩,
        Resource.order_of_rank_lt (by decide : 0 < 1)⟩
    · refine Resource.order_of_rank_lt ?_
      rw [hscope r hr]
      simp only [List.mem_cons, List.not_mem_nil, or_false] at hr'
      rcases hr' with rfl | rfl | rfl
      · exact (by decide : 2 < 3)
      · exact (by decide : 1 < 3)
      · exact (by decide : 0 < 3)

theorem getLast?_candidates (i : Identity) : i.candidates.getLast? = some .global := by
  rcases i.candidates_shapes with hi | ⟨paths, hi, -⟩ <;> rw [hi]
  · rfl
  · rw [List.getLast?_append]
    rfl

end Identity
end Floodgate
