import Mathlib.Data.List.Nodup
import Mathlib.Data.Set.Basic
import Mathlib.Logic.Function.Basic

/-!
# Operations that wait in order

An outbox is a list of operations that take effect one by one from its front. Each
operation requires some resources and provides others. An outbox is supplied when
every operation finds what it requires at the moment it takes effect, whatever the
other outboxes have added in between: resources are only ever added.

Some operations create a resource under a name of its own. Several outboxes are fresh
when no name is created twice.
-/

namespace Outbox

universe u v w

variable {ω : Type u} {ι : Type v} (provides requires : ω → Set ι)

/-- The resources that are there when all waiting operations have taken effect. -/
def available (present : Set ι) (waiting : List ω) : Set ι :=
  {resource | resource ∈ present ∨ ∃ operation ∈ waiting, resource ∈ provides operation}

/-- Each operation finds what it requires among the present resources and those that the
operations before it provide. -/
inductive Supplied : Set ι → List ω → Prop where
  | nil {present : Set ι} : Supplied present []
  | cons {present : Set ι} {operation : ω} {later : List ω}
      (met : requires operation ⊆ present)
      (laterSupplied : Supplied (present ∪ provides operation) later) :
      Supplied present (operation :: later)

variable {provides requires} {present larger : Set ι} {operation : ω} {first second : List ω}

@[simp]
theorem available_nil : available provides present [] = present := by
  simp [available]

/-- An operation that takes effect moves what it provides from the outbox to what is present. -/
theorem available_cons :
    available provides present (operation :: first) =
      available provides (present ∪ provides operation) first := by
  ext resource
  simp [available, or_assoc]

theorem available_append :
    available provides present (first ++ second) =
      available provides (available provides present first) second := by
  ext resource
  simp [available, or_assoc, or_and_right, exists_or]

theorem subset_available : present ⊆ available provides present first :=
  fun _ isPresent => Or.inl isPresent

theorem available_mono (grows : present ⊆ larger) :
    available provides present first ⊆ available provides larger first := by
  rintro resource (isPresent | waiting)
  · exact Or.inl (grows isPresent)
  · exact Or.inr waiting

theorem available_subset_append :
    available provides present first ⊆ available provides present (first ++ second) := by
  rw [available_append]
  exact subset_available

theorem Supplied.mono (supplied : Supplied provides requires present first)
    (grows : present ⊆ larger) : Supplied provides requires larger first := by
  induction supplied generalizing larger with
  | nil => exact .nil
  | cons met _ ih => exact .cons (met.trans grows) (ih (Set.union_subset_union_left _ grows))

/-- The front operation finds what it requires, and the rest stays supplied after it. -/
theorem supplied_cons_iff :
    Supplied provides requires present (operation :: first) ↔
      requires operation ⊆ present ∧
        Supplied provides requires (present ∪ provides operation) first := by
  constructor
  · intro supplied
    cases supplied with
    | cons met laterSupplied => exact ⟨met, laterSupplied⟩
  · rintro ⟨met, laterSupplied⟩
    exact .cons met laterSupplied

/-- What is issued later may rely on everything issued before it. -/
theorem supplied_append_iff :
    Supplied provides requires present (first ++ second) ↔
      Supplied provides requires present first ∧
        Supplied provides requires (available provides present first) second := by
  induction first generalizing present with
  | nil =>
      rw [List.nil_append, available_nil]
      exact ⟨fun supplied => ⟨.nil, supplied⟩, And.right⟩
  | cons operation first ih =>
      rw [List.cons_append, supplied_cons_iff, supplied_cons_iff, ih, available_cons, and_assoc]

section Queues

variable {κ : Type w} [DecidableEq κ] {queues next : κ → List ω}

theorem supplied_issued {issuer : κ} {operations : List ω}
    (supplied : ∀ client, Supplied provides requires present (queues client))
    (isNew : Supplied provides requires (available provides present (queues issuer)) operations)
    (extended : next = Function.update queues issuer (queues issuer ++ operations)) (client : κ) :
    Supplied provides requires present (next client) := by
  rw [extended]
  by_cases same : client = issuer
  · subst same
    rw [Function.update_self, supplied_append_iff]
    exact ⟨supplied client, isNew⟩
  · rw [Function.update_of_ne same]
    exact supplied client

theorem supplied_persisted {issuer : κ} {rest : List ω}
    (supplied : ∀ client, Supplied provides requires present (queues client))
    (queued : queues issuer = operation :: rest) (added : present ∪ provides operation ⊆ larger)
    (shortened : next = Function.update queues issuer rest) (client : κ) :
    Supplied provides requires larger (next client) := by
  rw [shortened]
  by_cases same : client = issuer
  · subst same
    have fromFront := supplied client
    rw [queued, supplied_cons_iff] at fromFront
    rw [Function.update_self]
    exact fromFront.2.mono added
  · rw [Function.update_of_ne same]
    exact (supplied client).mono (Set.subset_union_left.trans added)

/-- When an outbox is emptied, all others stay as they are. -/
theorem dropped_of_emptied {issuer : κ} (emptied : next = Function.update queues issuer [])
    (client : κ) : next client = queues client ∨ next client = [] := by
  rw [emptied]
  by_cases same : client = issuer
  · subst same
    exact Or.inr (Function.update_self _ _ _)
  · exact Or.inl (Function.update_of_ne same _ _)

omit [DecidableEq κ] in
theorem supplied_dropped (supplied : ∀ client, Supplied provides requires present (queues client))
    (dropped : ∀ client, next client = queues client ∨ next client = []) (client : κ) :
    Supplied provides requires present (next client) := by
  rcases dropped client with same | empty
  · rw [same]
    exact supplied client
  · rw [empty]
    exact .nil

end Queues

section Creation

variable {κ : Type w} (creates : ω → Option ι)

/-- What the waiting operations create, in order. -/
def created (waiting : List ω) : List ι :=
  waiting.filterMap creates

/-- What waits to be created has a used name, and is neither present nor created by another
waiting operation. -/
structure Fresh (used present : Set ι) (queues : κ → List ω) : Prop where
  present_used : present ⊆ used
  waiting_used : ∀ client, ∀ resource ∈ created creates (queues client), resource ∈ used
  absent : ∀ client, ∀ resource ∈ created creates (queues client), resource ∉ present
  nodup : ∀ client, (created creates (queues client)).Nodup
  disjoint : ∀ client other, client ≠ other →
    (created creates (queues client)).Disjoint (created creates (queues other))

variable {creates} {used largerUsed later : Set ι} {queues next : κ → List ω}

theorem created_append (first second : List ω) :
    created creates (first ++ second) = created creates first ++ created creates second :=
  List.filterMap_append

theorem created_cons (operation : ω) (waiting : List ω) :
    created creates (operation :: waiting) =
      (creates operation).toList ++ created creates waiting := by
  cases isNew : creates operation <;> simp [created, isNew]

variable [DecidableEq κ]

/-- Operations that are issued create resources under names that were not used. -/
theorem Fresh.issued (fresh : Fresh creates used present queues) {issuer : κ}
    {operations : List ω} (grows : used ⊆ largerUsed)
    (isNew : ∀ resource ∈ created creates operations, resource ∉ used ∧ resource ∈ largerUsed)
    (nodupNew : (created creates operations).Nodup)
    (extended : next = Function.update queues issuer (queues issuer ++ operations)) :
    Fresh creates largerUsed present next := by
  -- what waits for a client is what waited, and for the issuer also what is issued
  have queued : ∀ client, created creates (next client) =
      created creates (queues client) ++
        if client = issuer then created creates operations else [] := by
    intro client
    rw [extended]
    by_cases same : client = issuer
    · subst same
      rw [Function.update_self, created_append, if_pos rfl]
    · rw [Function.update_of_ne same, if_neg same, List.append_nil]
  have mem_queued : ∀ client resource, resource ∈ created creates (next client) →
      resource ∈ created creates (queues client) ∨
        (client = issuer ∧ resource ∈ created creates operations) := by
    intro client resource resource_mem
    rw [queued] at resource_mem
    split_ifs at resource_mem with same
    · rcases List.mem_append.mp resource_mem with old | new
      · exact Or.inl old
      · exact Or.inr ⟨same, new⟩
    · exact Or.inl (by simpa using resource_mem)
  constructor
  · exact fresh.present_used.trans grows
  · intro client resource resource_mem
    rcases mem_queued client resource resource_mem with old | ⟨_, new⟩
    · exact grows (fresh.waiting_used client resource old)
    · exact (isNew resource new).2
  · intro client resource resource_mem
    rcases mem_queued client resource resource_mem with old | ⟨_, new⟩
    · exact fresh.absent client resource old
    · intro isPresent
      exact (isNew resource new).1 (fresh.present_used isPresent)
  · intro client
    rw [queued]
    split_ifs with same
    · refine List.nodup_append'.mpr ⟨fresh.nodup client, nodupNew, ?_⟩
      intro resource old new
      exact (isNew resource new).1 (fresh.waiting_used client resource old)
    · simpa using fresh.nodup client
  · intro client other different resource inClient inOther
    rcases mem_queued client resource inClient with old | ⟨isIssuer, new⟩
    · rcases mem_queued other resource inOther with otherOld | ⟨_, new⟩
      · exact fresh.disjoint client other different old otherOld
      · exact (isNew resource new).1 (fresh.waiting_used client resource old)
    · rcases mem_queued other resource inOther with otherOld | ⟨otherIssuer, _⟩
      · exact (isNew resource new).1 (fresh.waiting_used other resource otherOld)
      · exact different (isIssuer.trans otherIssuer.symm)

/-- An operation that takes effect adds at most what it creates. -/
theorem Fresh.persisted (fresh : Fresh creates used present queues) {issuer : κ}
    {rest : List ω} (grows : used ⊆ largerUsed) (queued : queues issuer = operation :: rest)
    (added : ∀ resource ∈ later, resource ∈ present ∨ resource ∈ (creates operation).toList)
    (shortened : next = Function.update queues issuer rest) :
    Fresh creates largerUsed later next := by
  have split : created creates (queues issuer) =
      (creates operation).toList ++ created creates rest := by
    rw [queued, created_cons]
  have mem_queued : ∀ client resource, resource ∈ created creates (next client) →
      resource ∈ created creates (queues client) := by
    intro client resource resource_mem
    rw [shortened] at resource_mem
    by_cases same : client = issuer
    · subst same
      rw [Function.update_self] at resource_mem
      rw [split]
      exact List.mem_append_right _ resource_mem
    · rwa [Function.update_of_ne same] at resource_mem
  have inQueue : ∀ resource ∈ (creates operation).toList,
      resource ∈ created creates (queues issuer) := by
    intro resource isNew
    rw [split]
    exact List.mem_append_left _ isNew
  constructor
  · intro resource isPresent
    rcases added resource isPresent with old | isNew
    · exact grows (fresh.present_used old)
    · exact grows (fresh.waiting_used issuer resource (inQueue resource isNew))
  · intro client resource resource_mem
    exact grows (fresh.waiting_used client resource (mem_queued client resource resource_mem))
  · intro client resource resource_mem isPresent
    rcases added resource isPresent with old | isNew
    · exact fresh.absent client resource (mem_queued client resource resource_mem) old
    · -- the resource that has just been created waits nowhere else
      by_cases same : client = issuer
      · subst same
        rw [shortened, Function.update_self] at resource_mem
        have nodup := fresh.nodup client
        rw [split] at nodup
        exact List.disjoint_of_nodup_append nodup isNew resource_mem
      · exact fresh.disjoint client issuer same (mem_queued client resource resource_mem)
          (inQueue resource isNew)
  · intro client
    rw [shortened]
    by_cases same : client = issuer
    · subst same
      have nodup := fresh.nodup client
      rw [split] at nodup
      rw [Function.update_self]
      exact List.Nodup.of_append_right nodup
    · rw [Function.update_of_ne same]
      exact fresh.nodup client
  · intro client other different resource inClient inOther
    exact fresh.disjoint client other different (mem_queued client resource inClient)
      (mem_queued other resource inOther)

omit [DecidableEq κ] in
theorem Fresh.dropped (fresh : Fresh creates used present queues) (grows : used ⊆ largerUsed)
    (dropped : ∀ client, next client = queues client ∨ next client = []) :
    Fresh creates largerUsed present next := by
  have waits : ∀ client resource, resource ∈ created creates (next client) →
      resource ∈ created creates (queues client) := by
    intro client resource resource_mem
    rcases dropped client with same | empty
    · rwa [same] at resource_mem
    · simp [empty, created] at resource_mem
  constructor
  · exact fresh.present_used.trans grows
  · intro client resource resource_mem
    exact grows (fresh.waiting_used client resource (waits client resource resource_mem))
  · intro client resource resource_mem
    exact fresh.absent client resource (waits client resource resource_mem)
  · intro client
    rcases dropped client with same | empty
    · rw [same]
      exact fresh.nodup client
    · simp [empty, created]
  · intro client other different resource inClient inOther
    exact fresh.disjoint client other different (waits client resource inClient)
      (waits other resource inOther)

end Creation

end Outbox
