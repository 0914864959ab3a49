import Workflow.Pipeline.Load
import Workflow.Proofs.Regex.Matching
import Workflow.Proofs.Schema.Admits
import Workflow.Proofs.Store.Path
import Workflow.Proofs.Text.Split

/-!
# What the schema of documents demands of paths

The schema of documents refers to that of pipelines, and this one to that of steps, which refers to
itself. So whatever step stands in an accepted document, at any depth, has only a path that the
pattern of paths matches. The texts that the pattern matches are the paths whose keys go on to no
further line.
-/
namespace Workflow.PipelineDocument
open Schema

def stepRules : Schema := (Schema.ofJson? stepSchema).getD default

def pipelineRules : Schema := (Schema.ofJson? pipelineSchema).getD default

/-- The schema of documents, without what it refers to. -/
def rootRules : Schema := (Schema.ofJson? schema).getD default

def pathRegex : Regex := (Regex.compile? .schema pathPattern).getD default

def documentRules : SchemaDocument :=
  ⟨schema, rootRules, .ofList [("#/$defs/pipeline", pipelineRules), ("#/$defs/step", stepRules)]⟩

theorem splitOn_slash_toList (target : String) :
    (target.splitOn "/").map String.toList = target.toList.splitOn '/' := by
  have hcut : target.splitOn "/" = _ := Text.splitOn_eq target '/'
  have hback : String.toList ∘ String.ofList = id := funext fun _ => String.toList_ofList
  rw [hcut, List.map_map, hback, List.map_id]

theorem target?_step : target? schema "#/$defs/step" = some stepRules := by
  have hkeys : targetKeys? "#/$defs/step" = some ["$defs", "step"] := by
    rw [targetKeys?, splitOn_slash_toList]
    decide
  rw [target?, hkeys]
  rfl

theorem target?_pipeline : target? schema "#/$defs/pipeline" = some pipelineRules := by
  have hkeys : targetKeys? "#/$defs/pipeline" = some ["$defs", "pipeline"] := by
    rw [targetKeys?, splitOn_slash_toList]
    decide
  rw [target?, hkeys]
  rfl

/-- With three references to follow, the two that there are have been found, and the second has been
met once more. -/
theorem resolveTargets?_schema (n : Nat) :
    resolveTargets? schema (n + 3) rootRules.references .empty = some documentRules.targets := by
  have hroot : rootRules.references = ["#/$defs/pipeline"] := rfl
  have hpipeline : pipelineRules.references = ["#/$defs/step"] := rfl
  have hstep : stepRules.references = ["#/$defs/step"] := rfl
  rw [hroot, resolveTargets?, if_neg (by decide), target?_pipeline]
  dsimp only
  rw [hpipeline, List.singleton_append, resolveTargets?, if_neg (by decide), target?_step]
  dsimp only
  rw [hstep, List.singleton_append, resolveTargets?, if_pos (by decide), resolveTargets?]
  rfl

theorem schemaOf_schema : schemaOf schema = .ok documentRules := by
  have hcount : (schema.count + 1) * (schema.count + 1) =
      schema.count * schema.count + 2 * schema.count - 2 + 3 := rfl
  have hroot : Schema.ofJson? schema = some rootRules := rfl
  rw [schemaOf, SchemaDocument.ofJson?, hroot]
  dsimp only [Option.bind_eq_bind, Option.bind_some]
  rw [hcount, resolveTargets?_schema]
  rfl

theorem load_eq (text : String) : load text = loadWith documentRules text := by
  rw [load, schemaOf_schema]
  rfl

theorem rootRules_pipelines : rootRules.Declares "pipelines" (eachOf "#/$defs/pipeline") :=
  ⟨_, _, rfl, .head _, rfl⟩

theorem pipelineRules_steps : pipelineRules.Declares "steps" (eachOf "#/$defs/step") :=
  ⟨_, _, rfl, .head _, rfl⟩

theorem pipelineRules_types : ∃ parts, pipelineRules = .all parts ∧ .types [.object] ∈ parts :=
  ⟨_, rfl, .tail _ (.tail _ (.head _))⟩

theorem stepRules_steps : stepRules.Declares "steps" (eachOf "#/$defs/step") :=
  ⟨_, _, rfl, .tail _ (.head _), rfl⟩

theorem stepRules_path :
    stepRules.Declares "path" (.all [.pattern pathPattern pathRegex, .types [.string]]) :=
  ⟨_, _, rfl, .tail _ (.head _), rfl⟩

section PathPattern
open Regex StorePath
variable {text : String} {cs : List Char}

/-- The pattern is made of characters that are no dots, a dot, and characters of one line. -/
theorem pathRegex_eq : pathRegex = .seq (.anchor .textStart)
    (.seq (.many (.set (.complement (.union .nothing (.range '.' '.')))) 1 none)
      (.seq (.set (.range '.' '.'))
        (.seq (.many (.set (.complement (.range '\n' '\n'))) 1 none) (.anchor .textEnd)))) :=
  rfl

theorem holds_noDot : (∀ c ∈ cs, (CharSet.complement (.union .nothing (.range '.' '.'))).holds c =
    true) ↔ '.' ∉ cs := by
  refine CharSet.holds_complement fun c => ?_
  rw [CharSet.holds, CharSet.holds, Bool.false_or, CharSet.holds_range_self]

theorem holds_noBreak :
    (∀ c ∈ cs, (CharSet.complement (.range '\n' '\n')).holds c = true) ↔ '\n' ∉ cs :=
  CharSet.holds_complement fun _ => CharSet.holds_range_self

/-- The pattern matches a text just if it is a path whose key goes on to no further line. -/
theorem isMatch_pathRegex :
    pathRegex.isMatch text = true ↔ ∃ path, parse? text = some path ∧ '\n' ∉ path.key.toList := by
  rw [isMatch_iff, pathRegex_eq]
  constructor
  · rintro ⟨_, -, _, _, ⟨hstart, rfl⟩, _, hns, _, hdot, _, hkey, hend, rfl⟩
    obtain rfl := beq_iff_eq.1 hstart
    obtain ⟨ns, after, htext, hnonempty, hnoDot, rfl⟩ := (matches_some_set [] text.toList).1 hns
    rw [htext] at hdot hkey hend
    obtain ⟨c, rest, rfl, hc, rfl⟩ := (matches_set ns after).1 hdot
    obtain rfl := CharSet.holds_range_self.1 hc
    rw [List.append_cons] at hkey hend
    obtain ⟨key, past, rfl, hfull, hnoBreak, rfl⟩ :=
      (matches_some_set (ns ++ ['.']) rest).1 hkey
    obtain rfl : past = [] := by simpa [Anchor.holds] using hend
    rw [List.append_nil] at htext
    have hresource : text = resource ⟨.ofList ns, .ofList key⟩ := by
      rw [← String.toList_inj, htext]
      simp [resource]
    exact ⟨_, parse?_eq_some.2 ⟨hresource, by simpa using hnonempty, by simpa using hfull,
      by simpa using holds_noDot.1 hnoDot⟩, by simpa using holds_noBreak.1 hnoBreak⟩
  · rintro ⟨⟨ns, key⟩, hpath, hnoBreak⟩
    obtain ⟨rfl, hns, hkey, hnoDot⟩ := parse?_eq_some.1 hpath
    have htext : (resource ⟨ns, key⟩).toList = ns.toList ++ '.' :: key.toList := by
      simp [resource]
    rw [htext]
    have hbefore := (matches_some_set [] (ns.toList ++ '.' :: key.toList)).2
      ⟨ns.toList, '.' :: key.toList, rfl, by simpa using hns, holds_noDot.2 hnoDot, rfl⟩
    have hdot := (matches_set ns.toList ('.' :: key.toList)).2
      ⟨'.', key.toList, rfl, CharSet.holds_range_self.2 rfl, rfl⟩
    have hafter := (matches_some_set (ns.toList ++ ['.']) key.toList).2
      ⟨key.toList, [], (List.append_nil _).symm, by simpa using hkey, holds_noBreak.2 hnoBreak, rfl⟩
    rw [← List.append_cons] at hafter
    exact ⟨0, Nat.zero_le _, _, 0, ⟨rfl, rfl⟩, _, hbefore, _, hdot, _, hafter,
      by simp [Anchor.holds], rfl⟩

end PathPattern

section Admitted
variable {v w : Json}

theorem documentRules_pipeline :
    documentRules.targets.get? "#/$defs/pipeline" = some pipelineRules :=
  rfl

theorem documentRules_step : documentRules.targets.get? "#/$defs/step" = some stepRules := rfl

theorem pipeline_of_violations (h : documentRules.violations v = [])
    (hw : w ∈ v.listAt "pipelines") : documentRules.Admits "#/$defs/pipeline" w :=
  SchemaDocument.item_of_violations h rootRules_pipelines hw

theorem object_of_pipeline (h : documentRules.Admits "#/$defs/pipeline" v) :
    ∃ fields, v = .obj fields := by
  obtain ⟨n, -, h⟩ := h.target documentRules_pipeline
  obtain ⟨parts, hparts, htypes⟩ := pipelineRules_types
  rw [hparts] at h
  exact (h.part htypes).object

theorem step_of_pipeline (h : documentRules.Admits "#/$defs/pipeline" v)
    (hw : w ∈ v.listAt "steps") : documentRules.Admits "#/$defs/step" w :=
  h.item documentRules_pipeline pipelineRules_steps hw

theorem step_of_step (h : documentRules.Admits "#/$defs/step" v)
    (hw : w ∈ v.listAt "steps") : documentRules.Admits "#/$defs/step" w :=
  h.item documentRules_step stepRules_steps hw

/-- The path of a step that is admitted is one. -/
theorem path_of_step (h : documentRules.Admits "#/$defs/step" v) {text : String}
    (hp : v.get? "path" = some (.str text)) : ∃ path, StorePath.parse? text = some path := by
  obtain ⟨n, -, h⟩ := h.target documentRules_step
  have hmatch := ((h.member stepRules_path hp).part List.mem_cons_self).isMatch
  obtain ⟨path, hpath, -⟩ := isMatch_pathRegex.1 hmatch
  exact ⟨path, hpath⟩

end Admitted
end Workflow.PipelineDocument
