import Workflow.Proofs.Json.Line
import Workflow.Proofs.Storage.Footprint
import Workflow.Proofs.Storage.Honest
import Workflow.Proofs.Store.Confined
import Workflow.Proofs.Store.Runs
import Workflow.Proofs.Text.Split
import Workflow.Proofs.Trail.Entries

/-!
# The trail as a window

All entries that are recorded, one after the other, make up the full trail. The trail of a store
holds the last of them, as many as it can, and a query is answered from these. A sink that writes
lines has them all: each entry is one line of its file.
-/
namespace Workflow
open Attempt
variable {σ : Type}

structure TrailQuery.Matches (q : TrailQuery) (e : TrailEntry) : Prop where
  operation : ∀ operation ∈ q.operation, e.operation = operation
  entityType : ∀ entityType ∈ q.entityType, e.entityType = entityType
  entityId : ∀ entityId ∈ q.entityId, e.entityId = entityId
  actor : ∀ actor ∈ q.actor, e.actor = actor
  since : ∀ time ∈ q.since, time.nanos ≤ e.time.nanos

theorem TrailQuery.fits_iff (q : TrailQuery) (e : TrailEntry) :
    q.fits e = true ↔ q.Matches e := by
  have field (wanted : Option String) (found : String) :
      wanted.all (· == found) = true ↔ ∀ text ∈ wanted, found = text := by
    cases wanted with
    | none => simp
    | some text =>
      simp only [Option.all_some, beq_iff_eq, Option.mem_def, Option.some.injEq, forall_eq']
      exact eq_comm
  have hsince : q.since.all (fun time => time.nanos ≤ e.time.nanos) = true ↔
      ∀ time ∈ q.since, time.nanos ≤ e.time.nanos := by
    cases q.since <;> simp
  simp only [fits, Bool.and_eq_true, field, hsince]
  exact ⟨fun ⟨⟨⟨⟨ho, ht⟩, hi⟩, ha⟩, hs⟩ => ⟨ho, ht, hi, ha, hs⟩,
    fun h => ⟨⟨⟨⟨h.operation, h.entityType⟩, h.entityId⟩, h.actor⟩, h.since⟩⟩

instance (q : TrailQuery) : DecidablePred q.Matches :=
  fun e => decidable_of_iff _ (q.fits_iff e)

def newest (limit : Option Nat) (es : List TrailEntry) : List TrailEntry :=
  match limit with
  | none => es
  | some n => es.rtake n

namespace Trail

theorem query_eq (t : Trail) (q : TrailQuery) :
    t.query q = newest q.limit (t.entries.filter fun e => q.Matches e) := by
  have hfits : q.fits = fun e => decide (q.Matches e) :=
    funext fun e => Bool.eq_iff_iff.mpr ((q.fits_iff e).trans decide_eq_true_iff.symm)
  rw [query, hfits]
  rfl

end Trail

theorem TrailEntry.newline_not_mem_line (e : TrailEntry) : '\n' ∉ e.line.toList := by
  rw [line, String.toList_ofList]
  exact (Json.unbroken_compactChars _).newline_not_mem

/-- The lines of entries one after the other, each with a line break at its end. -/
def TrailEntry.lines (es : List TrailEntry) : String := String.join (es.map (·.line ++ "\n"))

/-- The text is cut into the lines of the entries, and nothing after the last line break. -/
theorem TrailEntry.splitOn_lines (es : List TrailEntry) :
    (lines es).splitOn "\n" = es.map line ++ [""] := by
  have hchars : (lines es).toList.splitOn '\n' = es.map (·.line.toList) ++ [[]] := by
    induction es with
    | nil => rfl
    | cons e es ih =>
      have hcons : (lines (e :: es)).toList = e.line.toList ++ '\n' :: (lines es).toList := by
        simp [lines]
      have hplain : ∀ c ∈ e.line.toList, (c == '\n') = false := by
        rintro c hc
        exact beq_false_of_ne fun h => e.newline_not_mem_line (h ▸ hc)
      rw [hcons, List.splitOn, List.splitOnP_append_cons_of_forall_mem hplain '\n' (by decide)]
      exact congrArg (e.line.toList :: ·) ih
  have hbreak : "\n" = String.singleton '\n' := rfl
  rw [hbreak, Text.splitOn_eq, hchars]
  simp

theorem TrailEntry.utf8_lines_concat (es : List TrailEntry) (e : TrailEntry) :
    Text.utf8 (lines (es ++ [e])) = Text.utf8 (lines es) ++ Text.utf8 (e.line ++ "\n") := by
  have hjoin : lines (es ++ [e]) = lines es ++ (e.line ++ "\n") := by
    simp [lines, String.join]
  rw [hjoin]
  simp [Text.utf8]

/-- What stands at a path is changed there. -/
theorem Tree.find_altered {t old new : Tree} {p : Tree.Path}
    {f : Option Tree → Except FileError (Option Tree)} (h : t.find p = .ok old)
    (hf : f (some old) = .ok (some new)) :
    ((Attempt.alter fun t => do return ((), ← t.alter f p)) t).2.find p = .ok new := by
  obtain ⟨u, halter, hfind⟩ := Tree.alter_of_find h hf
  rw [alter_of_ok (congrArg (· >>= fun u => pure ((), u)) halter)]
  exact hfind

namespace Sink
variable {path : Tree.Path} {t u : Tree} {content : Bytes}

/-- The file of a sink is there when it has been opened, with what it held before. -/
theorem find_openLines (h : openLines path t = (.ok ⟨⟩, u)) :
    ∃ content, u.find path = .ok (.file content) ∧
      (t.shown path = some (some content) ∨ t.shown path = none ∧ content = []) := by
  obtain ⟨e, -, hr⟩ | ⟨⟨⟩, v, hmade, h⟩ := bind_cases h
  · cases hr
  have hsame : v.shown path = t.shown path := by
    rw [← Tree.shown_createDirectories_dropLast path t, hmade]
  obtain ⟨_, -, hr, -⟩ | ⟨_, halter, -⟩ := alter_cases h
  · cases hr
  obtain ⟨w, hw, hwu⟩ := ok_of_map halter
  cases hwu
  obtain ⟨new, hnew, hfound⟩ := Tree.find_alter hw
  rw [← hsame, Tree.shown]
  cases hfind : v.find path with
  | error e =>
    rw [hfind] at hnew
    cases hnew
    exact ⟨[], hfound _ rfl, .inr ⟨rfl, rfl⟩⟩
  | ok found =>
    rw [hfind] at hnew
    cases found with
    | directory entries => cases hnew
    | file content =>
      cases hnew
      exact ⟨content, hfound _ rfl, .inl rfl⟩

/-- An entry is added to a file that is there. -/
theorem append_lines (h : t.find path = .ok (.file content)) (e : TrailEntry) :
    ((lines path).append e t).2.find path =
      .ok (.file (content ++ Text.utf8 (e.line ++ "\n"))) := by
  dsimp only [lines]
  exact Tree.find_altered h rfl

end Sink

namespace Store
variable {env : Environment σ} {s : Store σ}

/-- The store when entries have been recorded one after the other. -/
def recordAll (env : Environment σ) (es : List TrailEntry) (s : Store σ) : Store σ :=
  es.foldl (fun s e => (record env e s).2) s

theorem recordAll_concat (env : Environment σ) (es : List TrailEntry) (e : TrailEntry)
    (s : Store σ) : s.recordAll env (es ++ [e]) = (record env e (s.recordAll env es)).2 := by
  rw [recordAll, List.foldl_concat]
  rfl

theorem recordAll_adds (env : Environment σ) (s : Store σ) (es : List TrailEntry) :
    s.trail.Adds es (s.recordAll env es).trail := by
  induction es using List.reverseRecOn with
  | nil => exact .refl s.trail
  | append_singleton es e ih =>
    rw [recordAll_concat, record_apply]
    exact ih.trans (.record _ e)

theorem recordAll_lines {p : Part σ Tree} {path : Tree.Path} {content : Bytes} (hp : p.Lawful)
    (hsink : env.sink = some ((Sink.lines path).through p))
    (hfile : (p.get s.outside).find path = .ok (.file content)) (es : List TrailEntry) :
    (p.get (s.recordAll env es).outside).find path =
      .ok (.file (content ++ Text.utf8 (TrailEntry.lines es))) := by
  induction es using List.reverseRecOn with
  | nil =>
    have hnone : Text.utf8 (TrailEntry.lines []) = [] := rfl
    rw [hnone, List.append_nil]
    exact hfile
  | append_singleton es e ih =>
    have hpass : env.pass e (s.recordAll env es).outside =
        p.set ((Sink.lines path).append e (p.get (s.recordAll env es).outside)).2
          (s.recordAll env es).outside := by
      rw [Environment.pass, hsink]
      rfl
    rw [recordAll_concat, record_apply, TrailEntry.utf8_lines_concat, ← List.append_assoc,
      ← Sink.append_lines ih e]
    dsimp only
    rw [hpass, hp]

end Store

/-- Whatever becomes of the sink, queries are answered from the last of all entries that were
recorded, as many as the trail holds: of those that match, the last ones up to the limit, in the
order in which they were recorded. A sink that writes lines adds each entry to its file as one line
with a line break at its end, also those that the trail has dropped, and no line has a line break
inside. -/
theorem trail_window (env : Environment σ) {capacity : Nat} {s : Store σ}
    (hs : s.trail = .empty capacity) (es : List TrailEntry) :
    let t := s.recordAll env es
    (∀ q, t.trail.query q =
      newest q.limit ((es.rtake (max capacity 1)).filter fun e => q.Matches e)) ∧
    t.trail.entries.length = min es.length (max capacity 1) ∧
    (∀ (p : Part σ Tree) (path : Tree.Path) (x : Tree), p.Lawful →
      env.sink = some ((Sink.lines path).through p) →
      Sink.openLines path x = (.ok ⟨⟩, p.get s.outside) →
      ∃ old, (x.shown path = some (some old) ∨ x.shown path = none ∧ old = []) ∧
        (p.get t.outside).read path = .ok (old ++ Text.utf8 (TrailEntry.lines es))) ∧
    (TrailEntry.lines es).splitOn "\n" = es.map TrailEntry.line ++ [""] ∧
    ∀ e : TrailEntry, '\n' ∉ e.line.toList := by
  intro t
  have hentries : t.trail.entries = es.rtake (max capacity 1) := by
    have hadds := (s.recordAll_adds env es).entries
    rwa [hs] at hadds
  refine ⟨fun q => ?_, ?_, ?_, TrailEntry.splitOn_lines es, TrailEntry.newline_not_mem_line⟩
  · rw [Trail.query_eq, hentries]
  · rw [hentries, List.rtake, List.length_drop]
    omega
  · intro p path x hp hsink hopen
    obtain ⟨old, hfile, hold⟩ := Sink.find_openLines hopen
    refine ⟨old, hold, ?_⟩
    rw [Tree.read, Store.recordAll_lines hp hsink hfile es]
    rfl

/-- Of two entries a trail for none keeps the second one. Both are lines of the file, although the
first one is about a key with a line break in it. -/
theorem trail_window_dropped :
    let env : Environment Tree := ⟨none, none, some ((Sink.lines ["t"]).through .whole), 0⟩
    let first := TrailEntry.plain (.since ⟨1⟩ 0) ⟨1⟩ "set" "context" "a.j\nk" "r"
    let second := TrailEntry.plain (.since ⟨1⟩ 1) ⟨2⟩ "read" "context" "a.k" "r"
    let s : Store Tree := { Store.blank (Sink.openLines ["t"] .empty).2 with trail := .empty 0 }
    let t := s.recordAll env [first, second]
    t.trail.query { entityType := some "context" } = [second] ∧
      t.trail.query { operation := some "set" } = [] ∧ t.trail.entries.length = 1 ∧
      Tree.read ["t"] t.outside = .ok (Text.utf8 (TrailEntry.lines [first, second])) ∧
      (TrailEntry.lines [first, second]).splitOn "\n" = [first.line, second.line, ""] ∧
      '\n' ∉ first.line.toList := by
  intro env first second s t
  obtain ⟨hquery, hlength, hfile, hlines, hline⟩ :=
    trail_window env (s := s) (rfl : s.trail = .empty 0) [first, second]
  obtain ⟨old, hold, hread⟩ := hfile .whole ["t"] .empty (fun _ _ => rfl) rfl rfl
  have hnew : old = [] := by
    obtain hold | ⟨-, rfl⟩ := hold
    · cases hold
    · rfl
  have hcontext : t.trail.query { entityType := some "context" } = [second] :=
    (hquery _).trans (by cbv)
  have hset : t.trail.query { operation := some "set" } = [] := (hquery _).trans (by cbv)
  rw [hnew, List.nil_append] at hread
  exact ⟨hcontext, hset, hlength, hread, hlines, hline first⟩

end Workflow
