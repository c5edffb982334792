import NearestWins.Proofs.NearestDeclaration
import NearestWins.Proofs.Traversal

/-!
# Changes of the key scheme

A lineage may change its key scheme between derivations, any number of times. All schemes record in one
table, but a key of one scheme is never a key of another one. `Step.quietAll` lists the steps of a lineage
with nothing declared while another scheme is in force than the one to be kept. Main statement: under the
scheme that is in force at the end, a lineage answers and collects as its quiet version does.
-/

namespace NearestWins

theorem KeyScheme.eq_of_key_eq {s t : KeyScheme} {a b : Artifact} (h : s.key a = t.key b) : s = t := by
  cases s <;> cases t <;> simp_all [KeyScheme.key]

theorem KeyScheme.filter_key_eq_nil {current kept : KeyScheme} (h : current ≠ kept)
    (ds : List Dependency) (a : Artifact) :
    ds.filter (current.key ·.artifact = kept.key a) = [] := by
  refine List.filter_eq_nil_iff.mpr fun d _ hd => h ?_
  exact eq_of_key_eq (of_decide_eq_true hd)

namespace Snapshot

/-! ## The quiet version of a lineage -/

/-- The scheme in force after a step. -/
def Step.schemeAfter (current : KeyScheme) : Step → KeyScheme
  | .derive _ => current
  | .rekey scheme => scheme

/-- The same step, with nothing declared unless the kept scheme is in force. -/
def Step.quiet (kept current : KeyScheme) : Step → Step
  | .derive managed => .derive (if current = kept then managed else [])
  | .rekey scheme => .rekey scheme

/-- The same steps from the current scheme on, with nothing declared while it is not the kept one. -/
def Step.quietAll (kept : KeyScheme) : KeyScheme → List Step → List Step
  | _, [] => []
  | current, step :: rest =>
    step.quiet kept current :: Step.quietAll kept (step.schemeAfter current) rest

theorem take_scheme (s : Snapshot) (step : Step) : (s.take step).scheme = step.schemeAfter s.scheme := by
  cases step with
  | derive managed => exact derive_scheme s managed
  | rekey scheme => rfl

theorem Step.schemeAfter_quiet (kept current scheme : KeyScheme) (step : Step) :
    (step.quiet kept current).schemeAfter scheme = step.schemeAfter scheme := by
  cases step <;> rfl

/-! ## Snapshots that agree under a scheme -/

/-- Two snapshots at the same depth of runs with the same thresholds and policy, which record the same
under all keys of one scheme. What they record under other keys, and their own schemes, may differ. -/
structure AgreeUnder (kept : KeyScheme) (m m' : Snapshot) : Prop where
  depth : m'.depth = m.depth
  thresholds : m'.thresholds = m.thresholds
  policy : m'.policy = m.policy
  entries : ∀ a : Artifact, m'.table.entry (kept.key a) = m.table.entry (kept.key a)

namespace AgreeUnder

variable {kept : KeyScheme} {m m' : Snapshot}

theorem refl (kept : KeyScheme) (m : Snapshot) : AgreeUnder kept m m :=
  ⟨rfl, rfl, rfl, fun _ => rfl⟩

theorem rekey (h : AgreeUnder kept m m') (scheme scheme' : KeyScheme) :
    AgreeUnder kept (m.withScheme scheme) (m'.withScheme scheme') :=
  ⟨h.depth, h.thresholds, h.policy, h.entries⟩

/-- Only what is declared under keys of the kept scheme matters. -/
theorem derive (h : AgreeUnder kept m m') {l l' : List Dependency}
    (hl : ∀ a, l'.filter (m'.scheme.key ·.artifact = kept.key a) =
      l.filter (m.scheme.key ·.artifact = kept.key a)) :
    AgreeUnder kept (m.derive l).value (m'.derive l').value := by
  have hderiving : m'.isDeriving = m.isDeriving := by
    rw [isDeriving, isDeriving, h.depth, h.thresholds]
  constructor
  · rw [derive_depth, derive_depth, h.depth]
  · rw [derive_thresholds, derive_thresholds, h.thresholds]
  · rw [derive_policy, derive_policy, h.policy]
  · intro a
    rw [entry_derive, entry_derive, hderiving, hl a, h.policy, h.entries a]

/-- While another scheme is in force, declarations might as well not be there. -/
theorem derive_idle (h : AgreeUnder kept m m') (hscheme : m.scheme ≠ kept) (l : List Dependency) :
    AgreeUnder kept (m.derive l).value (m'.derive []).value := by
  refine h.derive fun a => ?_
  rw [KeyScheme.filter_key_eq_nil hscheme, List.filter_nil]

theorem take (h : AgreeUnder kept m m') (hscheme : m'.scheme = m.scheme) (step : Step) :
    AgreeUnder kept (m.take step) (m'.take (step.quiet kept m.scheme)) := by
  cases step with
  | rekey scheme => exact h.rekey scheme scheme
  | derive managed =>
    by_cases hkept : m.scheme = kept
    · have hsame : AgreeUnder kept (m.derive managed).value (m'.derive managed).value :=
        h.derive fun a => by rw [hscheme]
      simpa only [Snapshot.take, Step.quiet, if_pos hkept] using hsame
    · simpa only [Snapshot.take, Step.quiet, if_neg hkept] using h.derive_idle hkept managed

/-- A lineage and its quiet version agree under the kept scheme all the way. -/
theorem follow (h : AgreeUnder kept m m') (hscheme : m'.scheme = m.scheme) (steps : List Step) :
    AgreeUnder kept (m.follow steps) (m'.follow (Step.quietAll kept m.scheme steps)) ∧
      (m'.follow (Step.quietAll kept m.scheme steps)).scheme = (m.follow steps).scheme := by
  induction steps generalizing m m' with
  | nil => exact ⟨h, hscheme⟩
  | cons step rest ih =>
    have hafter : (m'.take (step.quiet kept m.scheme)).scheme = (m.take step).scheme := by
      rw [take_scheme, take_scheme, Step.schemeAfter_quiet, hscheme]
    have hrest := ih (h.take hscheme step) hafter
    rwa [take_scheme m step] at hrest

/-- A stretch of a lineage under another scheme leaves no more behind than its length. -/
theorem deriveAll_idle (h : AgreeUnder kept m m') (hscheme : m.scheme ≠ kept)
    (lists : List (List Dependency)) :
    AgreeUnder kept (m.deriveAll lists) (m'.deriveAll (lists.map fun _ => [])) := by
  induction lists generalizing m m' with
  | nil => exact h
  | cons managed lists ih =>
    have hnext : (m.derive managed).value.scheme ≠ kept := by
      rw [derive_scheme]
      exact hscheme
    exact ih (h.derive_idle hscheme managed) hnext

end AgreeUnder

/-! ## Answers -/

/-- Two snapshots answer for each dependency alike and collect the same forest from each tree. -/
def AnswersAlike (m m' : Snapshot) : Prop :=
  (∀ d, m'.manage d = m.manage d) ∧
    ∀ tree traversal, (m'.collect tree traversal).value = (m.collect tree traversal).value

theorem AgreeUnder.manage {m m' : Snapshot} (h : AgreeUnder m.scheme m m')
    (hscheme : m'.scheme = m.scheme) (d : Dependency) : m'.manage d = m.manage d := by
  have happlying : m'.isApplying = m.isApplying := by
    rw [isApplying, isApplying, h.depth, h.thresholds]
  have hoverrides : m'.overrides d = m.overrides d :=
    overrides_eq_of_entry_eq h.policy (by rw [hscheme]; exact h.entries d.artifact)
  rw [Snapshot.manage, Snapshot.manage, happlying, hoverrides, hscheme, h.depth]

theorem AgreeUnder.resolve {m m' : Snapshot} (h : AgreeUnder m.scheme m m')
    (hscheme : m'.scheme = m.scheme) (excluded : ExclusionSet) (node : Node) :
    (m'.resolve excluded node).value = (m.resolve excluded node).value := by
  have hresolved : ∀ d change, m'.resolved d change = m.resolved d change := by
    intro d change
    rw [resolved, resolved, h.depth, h.policy]
  simp only [Snapshot.resolve, h.manage hscheme, hresolved]

theorem AgreeUnder.resolvingAlike :
    ResolvingAlike fun m m' => AgreeUnder m.scheme m m' ∧ m'.scheme = m.scheme where
  derive managed h := by
    obtain ⟨hagree, hscheme⟩ := h
    rw [derive_scheme, derive_scheme]
    exact ⟨hagree.derive fun a => by rw [hscheme], hscheme⟩
  resolve excluded node h := h.1.resolve h.2 excluded node

/-- Snapshots that agree under the scheme in force answer alike, now and in all that is derived from
them. -/
theorem AgreeUnder.answersAlike {m m' : Snapshot} (h : AgreeUnder m.scheme m m')
    (hscheme : m'.scheme = m.scheme) : AnswersAlike m m' :=
  ⟨h.manage hscheme, resolvingAlike.value_collect ⟨h, hscheme⟩⟩

/-- Key schemes never mix: a lineage answers under its last scheme as it does with nothing declared under
other ones. So what is declared during a stretch under another scheme has no effect once the scheme before
it is back, and what was declared under that scheme has the effect that it had. -/
theorem key_schemes_never_mix (s : Snapshot) (steps : List Step) :
    let m := s.follow steps
    AnswersAlike m (s.follow (Step.quietAll m.scheme s.scheme steps)) ∧
      ∀ other, other ≠ m.scheme → ∀ lists : List (List Dependency),
        AnswersAlike (((m.withScheme other).deriveAll lists).withScheme m.scheme)
          (m.deriveAll (lists.map fun _ => [])) := by
  intro m
  constructor
  · obtain ⟨hagree, hscheme⟩ := (AgreeUnder.refl m.scheme s).follow rfl steps
    exact hagree.answersAlike hscheme
  · intro other hother lists
    have hstart : AgreeUnder m.scheme (m.withScheme other) m := ⟨rfl, rfl, rfl, fun _ => rfl⟩
    have hback := (hstart.deriveAll_idle hother lists).rekey m.scheme m.scheme
    have hidle : (m.deriveAll (lists.map fun _ => [])).withScheme m.scheme =
        m.deriveAll (lists.map fun _ => []) := by
      rw [withScheme, ← deriveAll_scheme m (lists.map fun _ => [])]
    rw [hidle] at hback
    exact hback.answersAlike (deriveAll_scheme m _)

/-- A version is declared under the full scheme and another one under the group-artifact scheme. Each of
them is answered under its own scheme, however often the scheme changes. -/
theorem key_schemes_never_mix_sample :
    let lib (version : String) : Dependency :=
      { artifact := { groupId := "g", artifactId := "a", version := version } }
    let m := (root .standard .legacy).follow [.derive [lib "2"]]
    let coarse := (m.withScheme .groupArtifact).deriveAll [[lib "3"]]
    let version (s : Snapshot) := (s.manage (lib "1")).value.bind Override.version
    KeyScheme.groupArtifact ≠ m.scheme ∧
      AnswersAlike (coarse.withScheme m.scheme) (m.deriveAll [[]]) ∧
      version coarse = some "3" ∧ version (coarse.withScheme m.scheme) = some "2" := by
  intro lib m coarse version
  have hother : KeyScheme.groupArtifact ≠ m.scheme := by decide
  obtain ⟨-, hrestored⟩ := key_schemes_never_mix (root .standard .legacy) [.derive [lib "2"]]
  exact ⟨hother, hrestored .groupArtifact hother [[lib "3"]], by decide +kernel, by decide +kernel⟩

end Snapshot

end NearestWins
