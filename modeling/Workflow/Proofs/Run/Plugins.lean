import Workflow.Proofs.Store.Path
import Workflow.Proofs.Table
import Workflow.Run.Action
import Mathlib.Data.List.Induction

/-!
# Plugins by their references

A reference that a registry lists is cut at its first dot when a step uses it. It means the plugin
that it is listed for if no dot stands in the type of that plugin; names may have dots.
-/
namespace Workflow

namespace Registry
variable {α : Type} {r : Registry α} {registrations : List (String × String × α)}
  {type name before after : String} {plugin : α}

/-- The registry after plugins were registered one after the other, each under a type and a name. -/
def registerAll (registrations : List (String × String × α)) : Registry α :=
  registrations.foldl (fun r p => r.register p.1 p.2.1 p.2.2) .empty

/-- The plugin that was registered last under a type and a name. -/
def last? (registrations : List (String × String × α)) (type name : String) : Option α :=
  (registrations.reverse.find? fun p => p.1 == type && p.2.1 == name).map (·.2.2)

theorem registerAll_concat (registrations : List (String × String × α)) (p : String × String × α) :
    registerAll (registrations ++ [p]) =
      (registerAll registrations).register p.1 p.2.1 p.2.2 := by
  rw [registerAll, List.foldl_append]
  rfl

theorem find?_register (r : Registry α) (type name : String) (plugin : α) (t n : String) :
    (r.register type name plugin).find? t n =
      if type = t ∧ name = n then some plugin else r.find? t n := by
  rw [find?, register, Table.get?_insert]
  by_cases ht : type = t
  · subst ht
    have hfind : r.find? type n = ((r.get? type).getD .empty).get? n := by
      rw [find?]
      cases r.get? type <;> rfl
    simp [Table.get?_insert, hfind, eq_comm]
  · simp [ht, Ne.symm ht, find?]

/-- What is found is what was registered last. -/
theorem find?_registerAll (registrations : List (String × String × α)) (type name : String) :
    (registerAll registrations).find? type name = last? registrations type name := by
  induction registrations using List.reverseRecOn with
  | nil => rfl
  | append_singleton registrations p ih =>
    rw [registerAll_concat, find?_register, ih, last?, last?, List.reverse_concat]
    by_cases h : p.1 = type ∧ p.2.1 = name
    · simp [h]
    · rw [if_neg h, List.find?_cons_of_neg (by simpa using h)]

/-- The types are in order, and so are the names of each type. -/
structure Ordered (r : Registry α) : Prop where
  types : r.Sorted
  names : ∀ type t, r.get? type = some t → t.Sorted

theorem Ordered.register (h : r.Ordered) (type name : String) (plugin : α) :
    (r.register type name plugin).Ordered where
  types := h.types.insert _ _
  names t names hnames := by
    rw [Registry.register, Table.get?_insert] at hnames
    split at hnames
    · obtain rfl := Option.some.inj hnames
      apply Table.Sorted.insert
      cases hget : r.get? type with
      | none => exact List.Pairwise.nil
      | some before => exact h.names type before hget
    · exact h.names t names hnames

theorem ordered_registerAll (registrations : List (String × String × α)) :
    (registerAll registrations).Ordered := by
  induction registrations using List.reverseRecOn with
  | nil => exact ⟨List.Pairwise.nil, nofun⟩
  | append_singleton registrations p ih =>
    rw [registerAll_concat]
    exact ih.register p.1 p.2.1 p.2.2

theorem Ordered.mem_plugins (h : r.Ordered) :
    (type, name, plugin) ∈ r.plugins ↔ r.find? type name = some plugin := by
  simp only [plugins, find?, List.mem_flatMap, List.mem_map, Option.bind_eq_some_iff]
  constructor
  · rintro ⟨t, ht, p, hp, heq⟩
    cases heq
    have hget := h.types.get?_of_mem ht
    exact ⟨t.2, hget, (h.names t.1 t.2 hget).get?_of_mem hp⟩
  · rintro ⟨t, ht, hp⟩
    exact ⟨(type, t), Table.mem_of_lookup ht, (name, plugin), Table.mem_of_lookup hp, rfl⟩

theorem splitReference_reference (h : '.' ∉ type.toList) :
    PluginCall.splitReference (reference type name) = (some type, name) := by
  have hsplit : StorePath.splitDot? (reference type name) = some (type, name) :=
    StorePath.splitDot?_eq_some.mpr ⟨by simp [reference], h⟩
  rw [PluginCall.splitReference, hsplit]

theorem reference_reference (before after name : String) :
    reference (reference before after) name = reference before (reference after name) := by
  simp [reference, String.append_assoc]

theorem resolve?_reference (registrations : List (String × String × α)) (name : String)
    (h : '.' ∉ type.toList) :
    (registerAll registrations).resolve? (PluginCall.splitReference (reference type name)) =
      last? registrations type name := by
  rw [splitReference_reference h, resolve?, find?_registerAll]

/-- A dot in the type of a plugin is taken for the end of the type, so that its reference means a
plugin of another type, or none. -/
theorem resolve?_dotted (registrations : List (String × String × α)) (name : String)
    (h : '.' ∉ before.toList) :
    (registerAll registrations).resolve?
        (PluginCall.splitReference (reference (reference before after) name)) =
      last? registrations before (reference after name) := by
  rw [reference_reference, resolve?_reference registrations _ h]

-- The first plugin cannot be reached: its reference is that of the second one.
example : (registerAll [("A.b", "c", 1), ("A", "b.c", 2)]).references = ["A.b.c", "A.b.c"] ∧
    (registerAll [("A.b", "c", 1), ("A", "b.c", 2)]).resolve?
      (PluginCall.splitReference "A.b.c") = some 2 := by
  decide

end Registry

namespace Program
variable {σ π : Type}

def usePlugin (step reference : String) (call : PluginCall) (plugin : Plugin π) :
    RunAction σ π Unit := do
  let config ← resolveTable step call.config
  let output ← runPlugin step reference plugin (stepConfig step reference call config)
  match call.outputKey with
  | some key => modify (·.bind key (.obj output))
  | none => modify (·.bindAll output)

theorem callPlugin_of_resolve? {p : Program σ π} {step reference : String} {call : PluginCall}
    {plugin : Plugin π}
    (h : p.plugins.resolve? (PluginCall.splitReference reference) = some plugin) :
    p.callPlugin step reference call = usePlugin step reference call plugin := by
  rw [callPlugin, h]
  rfl

end Program

/-- **Listed references.** After any registrations, the plugin that is listed under a type and a
name is the one that was registered last under them, and it is listed with their reference. If the
type has no dot, the reference means this plugin, and a step with the reference calls it. If the
type has a dot, the reference means what was registered last under what stands before its first dot
and what follows this dot. -/
theorem listed_resolve {σ π : Type} (registrations : List (String × String × Plugin π))
    (type name : String) :
    (∀ plugin, (type, name, plugin) ∈ (Registry.registerAll registrations).plugins ↔
      Registry.last? registrations type name = some plugin) ∧
    (∀ plugin, (type, name, plugin) ∈ (Registry.registerAll registrations).plugins →
      Registry.reference type name ∈ (Registry.registerAll registrations).references ∧
      ('.' ∉ type.toList →
        (Registry.registerAll registrations).resolve?
          (PluginCall.splitReference (Registry.reference type name)) = some plugin ∧
        ∀ (p : Program σ π) (step : String) (call : PluginCall),
          p.plugins = .registerAll registrations →
            p.callPlugin step (Registry.reference type name) call =
              Program.usePlugin step (Registry.reference type name) call plugin)) ∧
    ∀ before after, type = Registry.reference before after → '.' ∉ before.toList →
      (Registry.registerAll registrations).resolve?
          (PluginCall.splitReference (Registry.reference type name)) =
        Registry.last? registrations before (Registry.reference after name) := by
  have hlisted (plugin : Plugin π) :
      (type, name, plugin) ∈ (Registry.registerAll registrations).plugins ↔
        Registry.last? registrations type name = some plugin := by
    rw [(Registry.ordered_registerAll registrations).mem_plugins, Registry.find?_registerAll]
  refine ⟨hlisted, fun plugin hplugin => ⟨List.mem_map_of_mem hplugin, fun hdot => ?_⟩, ?_⟩
  · have hresolve := (Registry.resolve?_reference registrations name hdot).trans
      ((hlisted plugin).mp hplugin)
    exact ⟨hresolve, fun p step call hp => Program.callPlugin_of_resolve? (hp ▸ hresolve)⟩
  · rintro before after rfl hdot
    exact Registry.resolve?_dotted registrations name hdot

/-- A plugin whose name has a dot, registered in the place of another one, and a plugin whose type
has one. -/
theorem listed_resolve_replaced :
    let broken : Plugin Unit := ⟨fun _ _ m => (.error (.failed "broken"), m)⟩
    let echo : Plugin Unit := ⟨fun config _ m => (.ok config, m)⟩
    let registrations := [("Http", "get.json", broken), ("Http.get", "xml", echo),
      ("Http", "get.json", echo)]
    let p : Program Unit Unit :=
      ⟨⟨[]⟩, ⟨none, none, none, 0⟩, .registerAll registrations, .default, .system⟩
    ("Http", "get.json", echo) ∈ (Registry.registerAll registrations).plugins ∧
    '.' ∉ "Http".toList ∧
    (Registry.registerAll registrations).resolve?
      (PluginCall.splitReference (Registry.reference "Http" "get.json")) = some echo ∧
    p.callPlugin "fetch" (Registry.reference "Http" "get.json") default =
      Program.usePlugin "fetch" (Registry.reference "Http" "get.json") default echo ∧
    ("Http.get", "xml", echo) ∈ (Registry.registerAll registrations).plugins ∧
    (Registry.registerAll registrations).resolve?
      (PluginCall.splitReference (Registry.reference "Http.get" "xml")) = none := by
  intro broken echo registrations p
  have hdot : '.' ∉ "Http".toList := by decide
  have hjson := @listed_resolve Unit Unit registrations "Http" "get.json"
  have hxml := @listed_resolve Unit Unit registrations "Http.get" "xml"
  have hlisted := (hjson.1 echo).mpr rfl
  obtain ⟨hresolve, hstep⟩ := (hjson.2.1 echo hlisted).2 hdot
  exact ⟨hlisted, hdot, hresolve, hstep p "fetch" default rfl, (hxml.1 echo).mpr rfl,
    hxml.2.2 "Http" "get" (by decide) hdot⟩

end Workflow
