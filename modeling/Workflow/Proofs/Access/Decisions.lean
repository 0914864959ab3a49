import Mathlib.Data.List.Permutation
import Workflow.Access.Permissions

/-!
# Decisions depend on the set of policies

What a role may do depends on which policies were accepted. In which order they were added plays no
part, nor how often each of them was, nor what was refused in between. A policy that forbids can
only take rights away, and one that allows can only give them.
-/
namespace Workflow

def Policy.Acceptable (d : Regex.Dialect) (p : Policy) : Prop :=
  ∃ c, CompiledPolicy.ofPolicy d p = .ok c

/-- A policy is about an access of a role to a resource. -/
structure Policy.Concerns (d : Regex.Dialect) (p : Policy) (role resource : String)
    (access : Access) : Prop where
  role : p.role = anyRole ∨ p.role = role
  access : Access.any ∈ p.actions ∨ access ∈ p.actions
  resource : ∃ r, Regex.compile? d (CompiledPolicy.anchored p.pattern) = some r ∧
    r.isMatch resource = true

namespace CompiledPolicy
variable {d : Regex.Dialect} {p : Policy} {c : CompiledPolicy} {role resource : String}
  {access : Access}

theorem ofPolicy_eq_ok : ofPolicy d p = .ok c ↔
    c.policy = p ∧ Regex.compile? d (anchored p.pattern) = some c.regex := by
  obtain ⟨policy, regex⟩ := c
  unfold ofPolicy
  split
  · rename_i found hfound
    rw [hfound, Except.ok.injEq, mk.injEq, Option.some.injEq, eq_comm (a := p)]
  · rename_i hnone
    simp [hnone]

theorem concerns_iff (h : ofPolicy d p = .ok c) :
    c.concerns role resource access = true ↔ p.Concerns d role resource access := by
  obtain ⟨hpolicy, hregex⟩ := ofPolicy_eq_ok.mp h
  have hrole : p.appliesTo role = true ↔ p.role = Policy.anyRole ∨ p.role = role := by
    simp [Policy.appliesTo]
  have haccess : p.covers access = true ↔ Access.any ∈ p.actions ∨ access ∈ p.actions := by
    simp only [Policy.covers, Access.covers, List.any_eq_true, Bool.or_eq_true, beq_iff_eq]
    grind
  simp only [concerns, hpolicy, Bool.and_eq_true, hrole, haccess]
  constructor
  · rintro ⟨⟨hr, ha⟩, hm⟩
    exact ⟨hr, ha, c.regex, hregex, hm⟩
  · rintro ⟨hr, ha, regex, hcompile, hm⟩
    obtain rfl : regex = c.regex := Option.some.inj (hcompile.symm.trans hregex)
    exact ⟨⟨hr, ha⟩, hm⟩

end CompiledPolicy

namespace Permissions
variable {d : Regex.Dialect} {enabled : Bool} {history earlier later : List Policy} {p : Policy}
  {c : CompiledPolicy} {effect : Effect} {role resource : String} {access : Access}

/-- Tries to add a policy. A refused one changes nothing. -/
def tryAdd (d : Regex.Dialect) (ps : Permissions) (p : Policy) : Permissions :=
  match ps.add d p with
  | .ok more => more
  | .error _ => ps

/-- The permissions after policies were tried one after the other. -/
def afterTrying (d : Regex.Dialect) (enabled : Bool) (history : List Policy) : Permissions :=
  history.foldl (tryAdd d) ⟨enabled, []⟩

theorem tryAdd_eq (ps : Permissions) (p : Policy) : ps.tryAdd d p =
    { ps with compiled := ps.compiled ++ (CompiledPolicy.ofPolicy d p).toOption.toList } := by
  unfold tryAdd add
  cases CompiledPolicy.ofPolicy d p with
  | error e => exact congrArg (Permissions.mk ps.enabled) (List.append_nil _).symm
  | ok c => rfl

theorem afterTrying_eq (enabled : Bool) (history : List Policy) : afterTrying d enabled history =
    ⟨enabled, history.filterMap fun p => (CompiledPolicy.ofPolicy d p).toOption⟩ := by
  have hfrom (compiled : List CompiledPolicy) : history.foldl (tryAdd d) ⟨enabled, compiled⟩ =
      ⟨enabled, compiled ++ history.filterMap fun p => (CompiledPolicy.ofPolicy d p).toOption⟩ := by
    induction history generalizing compiled with
    | nil => rw [List.foldl_nil, List.filterMap_nil, List.append_nil]
    | cons p history ih =>
      rw [List.foldl_cons, tryAdd_eq, ih, List.append_assoc]
      cases h : (CompiledPolicy.ofPolicy d p).toOption <;> simp [h]
  exact hfrom []

theorem mem_compiled : c ∈ (afterTrying d enabled history).compiled ↔
    c.policy ∈ history ∧ CompiledPolicy.ofPolicy d c.policy = .ok c := by
  have hread (p : Policy) :
      (CompiledPolicy.ofPolicy d p).toOption = some c ↔ CompiledPolicy.ofPolicy d p = .ok c := by
    cases CompiledPolicy.ofPolicy d p <;> simp [Except.toOption]
  simp only [afterTrying_eq, List.mem_filterMap, hread]
  constructor
  · rintro ⟨p, hp, hok⟩
    obtain rfl : c.policy = p := (CompiledPolicy.ofPolicy_eq_ok.mp hok).1
    exact ⟨hp, hok⟩
  · exact fun ⟨hp, hok⟩ => ⟨c.policy, hp, hok⟩

/-- The policies that are accepted are those that can be read. -/
theorem mem_policies : p ∈ (afterTrying d enabled history).policies ↔
    p ∈ history ∧ p.Acceptable d := by
  simp only [policies, List.mem_map, mem_compiled]
  constructor
  · rintro ⟨c, ⟨hp, hok⟩, rfl⟩
    exact ⟨hp, c, hok⟩
  · rintro ⟨hp, c, hok⟩
    obtain rfl : c.policy = p := (CompiledPolicy.ofPolicy_eq_ok.mp hok).1
    exact ⟨c, ⟨hp, hok⟩, rfl⟩

theorem add_eq_error (h : ¬p.Acceptable d) (ps : Permissions) :
    ps.add d p = .error (.badPattern p.pattern) := by
  unfold add
  cases hread : CompiledPolicy.ofPolicy d p with
  | ok c => exact absurd ⟨c, hread⟩ h
  | error e =>
    unfold CompiledPolicy.ofPolicy at hread
    split at hread
    · cases hread
    · cases hread
      rfl

/-- A refused policy could as well not have been tried. -/
theorem afterTrying_refused (h : ¬p.Acceptable d) :
    afterTrying d enabled (earlier ++ p :: later) = afterTrying d enabled (earlier ++ later) := by
  have hsame (ps : Permissions) : ps.tryAdd d p = ps := by rw [tryAdd, add_eq_error h]
  simp only [afterTrying, List.foldl_append, List.foldl_cons, hsame]

/-- Whether a policy with an effect is about an access is a question about the set of policies. -/
theorem concerned_iff :
    (afterTrying d enabled history).concerned effect role resource access = true ↔
    ∃ p ∈ (afterTrying d enabled history).policies,
      p.effect = effect ∧ p.Concerns d role resource access := by
  simp only [concerned, List.any_eq_true, Bool.and_eq_true, beq_iff_eq]
  constructor
  · rintro ⟨c, hc, heffect, habout⟩
    refine ⟨c.policy, List.mem_map_of_mem hc, heffect, ?_⟩
    exact (CompiledPolicy.concerns_iff (mem_compiled.mp hc).2).mp habout
  · rintro ⟨p, hp, heffect, habout⟩
    obtain ⟨c, hc, rfl⟩ := List.mem_map.mp hp
    exact ⟨c, hc, heffect, (CompiledPolicy.concerns_iff (mem_compiled.mp hc).2).mpr habout⟩

theorem allows_iff : (afterTrying d enabled history).allows role resource access = true ↔
    (enabled = true →
      (∃ p ∈ (afterTrying d enabled history).policies,
        p.effect = .allow ∧ p.Concerns d role resource access) ∧
      ∀ p ∈ (afterTrying d enabled history).policies,
        p.effect = .deny → ¬p.Concerns d role resource access) := by
  have henabled : (afterTrying d enabled history).enabled = enabled := by rw [afterTrying_eq]
  have hdeny : (afterTrying d enabled history).concerned .deny role resource access = false ↔
      ∀ p ∈ (afterTrying d enabled history).policies,
        p.effect = .deny → ¬p.Concerns d role resource access := by
    rw [← Bool.not_eq_true, concerned_iff]
    exact ⟨fun h p hp heffect habout => h ⟨p, hp, heffect, habout⟩,
      fun h ⟨p, hp, heffect, habout⟩ => h p hp heffect habout⟩
  rw [← concerned_iff, ← hdeny, allows, henabled]
  cases enabled <;> simp [and_comm]

theorem allows_congr {other : List Policy}
    (h : ∀ p, p ∈ (afterTrying d enabled other).policies ↔
      p ∈ (afterTrying d enabled history).policies) :
    (afterTrying d enabled other).allows role resource access =
      (afterTrying d enabled history).allows role resource access := by
  rw [Bool.eq_iff_iff, allows_iff, allows_iff]
  simp only [h]

/-- What is accepted together with a policy with one effect is accepted without it if its effect is
another one. -/
theorem mem_policies_of_ne {q : Policy} (hq : q.effect ≠ p.effect) :
    q ∈ (afterTrying d enabled (earlier ++ p :: later)).policies ↔
      q ∈ (afterTrying d enabled (earlier ++ later)).policies := by
  have hne : q ≠ p := fun heq => hq (congrArg Policy.effect heq)
  simp [mem_policies, hne]

theorem mem_policies_insert (p : Policy) {q : Policy}
    (hq : q ∈ (afterTrying d enabled (earlier ++ later)).policies) :
    q ∈ (afterTrying d enabled (earlier ++ p :: later)).policies := by
  rw [mem_policies, List.mem_append] at hq ⊢
  exact ⟨hq.1.imp_right (List.mem_cons_of_mem p), hq.2⟩

theorem allows_of_deny (h : p.effect = .deny)
    (hallows : (afterTrying d enabled (earlier ++ p :: later)).allows role resource access = true) :
    (afterTrying d enabled (earlier ++ later)).allows role resource access = true := by
  rw [allows_iff] at hallows ⊢
  intro henabled
  obtain ⟨⟨q, hq, heffect, habout⟩, hnone⟩ := hallows henabled
  refine ⟨⟨q, (mem_policies_of_ne ?_).mp hq, heffect, habout⟩, fun r hr => ?_⟩
  · rw [heffect, h]
    exact Effect.noConfusion
  · exact hnone r (mem_policies_insert p hr)

theorem allows_of_allow (h : p.effect = .allow)
    (hallows : (afterTrying d enabled (earlier ++ later)).allows role resource access = true) :
    (afterTrying d enabled (earlier ++ p :: later)).allows role resource access = true := by
  rw [allows_iff] at hallows ⊢
  intro henabled
  obtain ⟨⟨q, hq, heffect, habout⟩, hnone⟩ := hallows henabled
  refine ⟨⟨q, mem_policies_insert p hq, heffect, habout⟩, fun r hr hdeny => ?_⟩
  refine hnone r ((mem_policies_of_ne ?_).mp hr) hdeny
  rw [hdeny, h]
  exact Effect.noConfusion

/-- **Decisions depend on the set of policies.** After any history of policies that were tried, some
of them refused for their pattern, a role may do what it may do after any other history that has the
same policies accepted, in whatever order and however often; a refused policy leaves no trace. A
policy that forbids takes nothing into what is allowed and a policy that allows takes nothing out of
it, wherever in the history it is tried. With policing, a role may do exactly what an accepted
policy allows and none forbids. -/
theorem decided_by_policies (d : Regex.Dialect) (enabled : Bool) (history : List Policy)
    (role resource : String) (access : Access) :
    (∀ p, p ∈ (afterTrying d enabled history).policies ↔ p ∈ history ∧ p.Acceptable d) ∧
    (∀ other, (∀ p, p ∈ (afterTrying d enabled other).policies ↔
        p ∈ (afterTrying d enabled history).policies) →
      (afterTrying d enabled other).allows role resource access =
        (afterTrying d enabled history).allows role resource access) ∧
    (∀ earlier p later, history = earlier ++ later →
      (¬p.Acceptable d → (afterTrying d enabled earlier).add d p = .error (.badPattern p.pattern) ∧
        afterTrying d enabled (earlier ++ p :: later) = afterTrying d enabled history) ∧
      (p.effect = .deny →
        (afterTrying d enabled (earlier ++ p :: later)).allows role resource access = true →
          (afterTrying d enabled history).allows role resource access = true) ∧
      (p.effect = .allow → (afterTrying d enabled history).allows role resource access = true →
        (afterTrying d enabled (earlier ++ p :: later)).allows role resource access = true)) ∧
    (enabled = true → ((afterTrying d enabled history).allows role resource access = true ↔
      (∃ p ∈ (afterTrying d enabled history).policies,
        p.effect = .allow ∧ p.Concerns d role resource access) ∧
      ∀ p ∈ (afterTrying d enabled history).policies,
        p.effect = .deny → ¬p.Concerns d role resource access)) := by
  refine ⟨fun p => mem_policies, fun other => allows_congr, ?_, fun henabled => ?_⟩
  · rintro earlier p later rfl
    refine ⟨fun hp => ⟨add_eq_error hp _, afterTrying_refused hp⟩, ?_, ?_⟩
    · exact allows_of_deny
    · exact allows_of_allow
  · rw [allows_iff]
    exact forall_prop_of_true henabled

/-- The pipeline may do anything with the jobs, but nobody may read the secret one. The pattern of
the third policy has a parenthesis that nothing closes. -/
theorem decided_by_policies_secret :
    let jobs : Policy := ⟨"pipeline", "jobs\\..*", [.any], .allow⟩
    let secret : Policy := ⟨"*", "jobs\\.secret", [.read], .deny⟩
    let broken : Policy := ⟨"pipeline", "jobs(", [.read], .allow⟩
    (afterTrying .resource true [jobs, secret]).allows "pipeline" "jobs.secret" .write = true ∧
    (∀ p, p ∈ (afterTrying .resource true [secret, broken, jobs, secret]).policies ↔
      p ∈ (afterTrying .resource true [jobs, secret]).policies) ∧
    (afterTrying .resource true [secret, broken, jobs, secret]).allows "pipeline" "jobs.secret"
        .write =
      (afterTrying .resource true [jobs, secret]).allows "pipeline" "jobs.secret" .write ∧
    ¬broken.Acceptable .resource ∧
    afterTrying .resource true [jobs, broken, secret] = afterTrying .resource true [jobs, secret] ∧
    (afterTrying .resource true [jobs]).allows "pipeline" "jobs.secret" .write = true ∧
    (afterTrying .resource true [jobs, jobs, secret]).allows "pipeline" "jobs.secret" .write =
      true ∧
    ∃ p ∈ (afterTrying .resource true [jobs, secret]).policies,
      p.effect = .allow ∧ p.Concerns .resource "pipeline" "jobs.secret" .write := by
  intro jobs secret broken
  have h := decided_by_policies .resource true [jobs, secret] "pipeline" "jobs.secret" .write
  have hallowed :
      (afterTrying .resource true [jobs, secret]).allows "pipeline" "jobs.secret" .write =
        true := by cbv
  have hpolicies : (afterTrying .resource true [jobs, secret]).policies = [jobs, secret] := by cbv
  have hother : (afterTrying .resource true [secret, broken, jobs, secret]).policies =
      [secret, jobs, secret] := by cbv
  have hsame (p : Policy) :
      p ∈ (afterTrying .resource true [secret, broken, jobs, secret]).policies ↔
        p ∈ (afterTrying .resource true [jobs, secret]).policies := by
    rw [hpolicies, hother]
    grind
  have hbroken : ¬broken.Acceptable .resource := by
    rintro ⟨c, hc⟩
    have hno : (CompiledPolicy.ofPolicy .resource broken).isOk = false := by cbv
    rw [hc] at hno
    cases hno
  refine ⟨hallowed, hsame, h.2.1 _ hsame, hbroken, ?_, ?_, ?_, ?_⟩
  · exact ((h.2.2.1 [jobs] broken [secret] rfl).1 hbroken).2
  · have hjobs := decided_by_policies .resource true [jobs] "pipeline" "jobs.secret" .write
    exact (hjobs.2.2.1 [jobs] secret [] rfl).2.1 rfl hallowed
  · exact (h.2.2.1 [jobs] jobs [secret] rfl).2.2 rfl hallowed
  · exact ((h.2.2.2 rfl).mp hallowed).1

end Permissions
end Workflow
