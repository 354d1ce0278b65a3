import Nighthawk.Sink.Code
import Nighthawk.Lib.Fallible
import Mathlib.Data.List.Perm.Basic

/-!
# The merge of partial results

The merge takes an aggregate without options for one that has no piece yet. A piece without an output
counts as one with empty options, so it does not merge with a piece that has some.
-/

namespace Nighthawk.Sink

open Options Results

variable {m : Messages} {id : Str}

/-! ## One piece -/

theorem mergeOutput_first (input : Output) :
    mergeOutput m input {} = .ok ⟨some (input.timestamp.getD ⟨0, 0⟩), some (optionsOf input), input.results,
      some (versionOf input)⟩ := rfl

theorem mergeOutput_same {input target : Output} (hset : target.options.isSome)
    (hoptions : optionsOf input = optionsOf target) (hversion : versionOf input = versionOf target) :
    mergeOutput m input target = .ok { target with results := target.results ++ input.results } := by
  unfold mergeOutput
  rw [if_neg (Option.isSome_iff_ne_none.mp hset), hoptions, hversion, m.equivalentOptions_refl,
    m.equivalentVersion_refl]
  rfl

theorem mergeOutput_keeps {input target merged : Output} (hset : target.options.isSome)
    (h : mergeOutput m input target = .ok merged) :
    merged.options = target.options ∧ merged.version = target.version := by
  unfold mergeOutput at h
  rw [if_neg (Option.isSome_iff_ne_none.mp hset)] at h
  split at h
  · cases h
  · split at h
    · cases h
    · cases h
      exact ⟨rfl, rfl⟩

/-! ## All pieces -/

def mergedError (m : Messages) (pieces : List ExecutionResponse) : Option RpcStatus :=
  pieces.foldl (fun e piece => addErrorDetail m e piece.errorDetail) none

def resultsOf (pieces : List ExecutionResponse) : List Result :=
  pieces.flatMap fun piece => (outputOf piece).results

theorem mergePieces_same {pieces : List ExecutionResponse} {o : CommandLineOptions} {v : Message}
    (hid : ∀ piece ∈ pieces, piece.executionId = id)
    (hsame : ∀ piece ∈ pieces, optionsOf (outputOf piece) = o ∧ versionOf (outputOf piece) = v)
    (target : Output) (hset : target.options = some o) (hversion : versionOf target = v)
    (e : Option RpcStatus) :
    mergePieces m id pieces e target =
      .ok ⟨some { target with results := target.results ++ resultsOf pieces },
        pieces.foldl (fun e piece => addErrorDetail m e piece.errorDetail) e, id⟩ := by
  induction pieces generalizing e target with
  | nil => simp [mergePieces, resultsOf]
  | cons piece pieces ih =>
    obtain ⟨hpiece, hrest⟩ := List.forall_mem_cons.mp hsame
    obtain ⟨hid₀, hids⟩ := List.forall_mem_cons.mp hid
    have hstep : mergeOutput m (outputOf piece) target =
        .ok { target with results := target.results ++ (outputOf piece).results } := by
      apply mergeOutput_same (by rw [hset]; rfl)
      · rw [hpiece.1, optionsOf, hset]
        rfl
      · rw [hpiece.2, hversion]
    unfold mergePieces
    rw [if_neg (not_not.mpr hid₀), hstep]
    refine (ih hids hrest { target with results := target.results ++ (outputOf piece).results } hset
      hversion _).trans ?_
    simp [resultsOf]

theorem merge_of_same {pieces : List ExecutionResponse} {o : CommandLineOptions} {v : Message}
    (hne : pieces ≠ [])
    (hid : ∀ piece ∈ pieces, piece.executionId = id)
    (hsame : ∀ piece ∈ pieces, optionsOf (outputOf piece) = o ∧ versionOf (outputOf piece) = v) :
    ∃ output, mergeExecutionResponses m id pieces = .ok ⟨some output, mergedError m pieces, id⟩ ∧
      output.results = resultsOf pieces ∧ output.options = some o ∧ output.version = some v := by
  obtain ⟨first, pieces, rfl⟩ := List.exists_cons_of_ne_nil hne
  obtain ⟨hpiece, hrest⟩ := List.forall_mem_cons.mp hsame
  obtain ⟨hid₀, hids⟩ := List.forall_mem_cons.mp hid
  unfold mergeExecutionResponses
  rw [if_neg hne, mergePieces, if_neg (not_not.mpr hid₀), mergeOutput_first]
  refine ⟨_, mergePieces_same hids hrest _ (by rw [hpiece.1]) (by rw [← hpiece.2]; rfl) _, ?_, ?_, ?_⟩
  · simp [resultsOf]
  · rw [hpiece.1]
  · rw [hpiece.2]

theorem mergePieces_keeps {pieces : List ExecutionResponse} {e : Option RpcStatus} {target : Output}
    {merged : ExecutionResponse} (hset : target.options.isSome)
    (h : mergePieces m id pieces e target = .ok merged) :
    (outputOf merged).options = target.options ∧ (outputOf merged).version = target.version := by
  induction pieces generalizing e target with
  | nil =>
    cases h
    exact ⟨rfl, rfl⟩
  | cons piece pieces ih =>
    unfold mergePieces at h
    split at h
    · cases h
    · obtain ⟨next, hnext, h⟩ := Fallible.bind_eq_ok.mp h
      obtain ⟨hoptions, hversion⟩ := mergeOutput_keeps hset hnext
      obtain ⟨hoptions', hversion'⟩ := ih (by rw [hoptions]; exact hset) h
      exact ⟨hoptions'.trans hoptions, hversion'.trans hversion⟩

theorem merged_first {first : ExecutionResponse} {pieces : List ExecutionResponse}
    {merged : ExecutionResponse}
    (h : mergeExecutionResponses m id (first :: pieces) = .ok merged) :
    optionsOf (outputOf merged) = optionsOf (outputOf first) ∧
      versionOf (outputOf merged) = versionOf (outputOf first) := by
  unfold mergeExecutionResponses at h
  rw [if_neg (by simp), mergePieces] at h
  split at h
  · cases h
  · rw [mergeOutput_first] at h
    obtain ⟨hoptions, hversion⟩ := mergePieces_keeps rfl h
    unfold optionsOf versionOf at *
    rw [hoptions, hversion]
    exact ⟨rfl, rfl⟩

/-! ## Errors -/

theorem foldl_addErrorDetail (pieces : List ExecutionResponse) (e : Option RpcStatus) :
    ((pieces.foldl (fun e piece => addErrorDetail m e piece.errorDetail) e).isSome ↔
        e.isSome ∨ ∃ piece ∈ pieces, piece.errorDetail.isSome) ∧
      ((pieces.foldl (fun e piece => addErrorDetail m e piece.errorDetail) e).getD {}).details =
        (e.getD {}).details ++ (pieces.filterMap ExecutionResponse.errorDetail).map m.pack := by
  induction pieces generalizing e with
  | nil => simp
  | cons piece pieces ih =>
    obtain ⟨hsome, hdetails⟩ := ih (addErrorDetail m e piece.errorDetail)
    rw [List.foldl_cons, hsome, hdetails]
    cases hpiece : piece.errorDetail with
    | none => simp [addErrorDetail, hpiece]
    | some detail => simp [addErrorDetail, hpiece]

/-! ## The law -/

/-- What the merge of the pieces, in this order, should be. -/
def MergesTo (m : Messages) (id : Str) (o : CommandLineOptions) (v : Message)
    (pieces : List ExecutionResponse) : Prop :=
  ∃ merged, mergeExecutionResponses m id pieces = .ok merged ∧ merged.executionId = id ∧
    (outputOf merged).results = resultsOf pieces ∧
    ((∃ piece ∈ pieces, piece.output.isSome) →
      optionsOf (outputOf merged) = o ∧ versionOf (outputOf merged) = v) ∧
    (merged.errorDetail.isSome ↔ ∃ piece ∈ pieces, piece.errorDetail.isSome) ∧
    (merged.errorDetail.getD {}).details = (pieces.filterMap ExecutionResponse.errorDetail).map m.pack

theorem mergesTo_of_same {pieces : List ExecutionResponse} {o o' : CommandLineOptions} {v v' : Message}
    (hne : pieces ≠ []) (hid : ∀ piece ∈ pieces, piece.executionId = id)
    (hsame : ∀ piece ∈ pieces, optionsOf (outputOf piece) = o' ∧ versionOf (outputOf piece) = v')
    (hagreed : (∃ piece ∈ pieces, piece.output.isSome) → o' = o ∧ v' = v) : MergesTo m id o v pieces := by
  obtain ⟨output, hmerge, hresults, hoptions, hversion⟩ := merge_of_same (m := m) hne hid hsame
  obtain ⟨hsome, hdetails⟩ := foldl_addErrorDetail (m := m) pieces none
  refine ⟨_, hmerge, rfl, hresults, ?_, ?_, ?_⟩
  · intro houtput
    obtain ⟨rfl, rfl⟩ := hagreed houtput
    show output.options.getD {} = o' ∧ output.version.getD [] = v'
    rw [hoptions, hversion]
    exact ⟨rfl, rfl⟩
  · show (mergedError m pieces).isSome ↔ _
    rw [mergedError, hsome]
    simp
  · show ((mergedError m pieces).getD {}).details = _
    rw [mergedError, hdetails]
    rfl

/-- The merge is right in every order exactly when either all pieces have an output, or none has, or
the agreed options and version are empty. -/
theorem merge_in_every_order_iff (m : Messages) (id : Str) (o : CommandLineOptions) (v : Message)
    (pieces : List ExecutionResponse) (hne : pieces ≠ []) (hid : ∀ piece ∈ pieces, piece.executionId = id)
    (hagree : ∀ piece ∈ pieces, ∀ output, piece.output = some output →
      optionsOf output = o ∧ versionOf output = v) :
    (∀ order, order.Perm pieces → MergesTo m id o v order) ↔
      (∀ piece ∈ pieces, piece.output.isSome) ∨ (∀ piece ∈ pieces, piece.output = none) ∨
        (o = {} ∧ v = []) := by
  have hread : ∀ piece ∈ pieces, piece.output.isSome →
      optionsOf (outputOf piece) = o ∧ versionOf (outputOf piece) = v := by
    intro piece hpiece hsome
    obtain ⟨output, houtput⟩ := Option.isSome_iff_exists.mp hsome
    rw [outputOf, houtput]
    exact hagree piece hpiece output houtput
  have hempty : ∀ piece : ExecutionResponse, piece.output = none →
      optionsOf (outputOf piece) = {} ∧ versionOf (outputOf piece) = [] := by
    intro piece hnone
    rw [outputOf, hnone]
    exact ⟨rfl, rfl⟩
  constructor
  · intro horders
    by_cases hall : ∀ piece ∈ pieces, piece.output.isSome
    · exact .inl hall
    by_cases hno : ∀ piece ∈ pieces, piece.output = none
    · exact .inr (.inl hno)
    -- A piece without an output goes first, and then decides options and version.
    push Not at hall hno
    obtain ⟨first, hfirst, hnone⟩ := hall
    obtain ⟨other, hother, hsome⟩ := hno
    have hperm := (List.perm_cons_erase hfirst).symm
    obtain ⟨merged, hmerge, -, -, hagreed, -, -⟩ := horders _ hperm
    obtain ⟨hoptions, hversion⟩ :=
      hagreed ⟨other, hperm.mem_iff.mpr hother, Option.isSome_iff_ne_none.mpr hsome⟩
    obtain ⟨hoptions', hversion'⟩ := merged_first hmerge
    obtain ⟨ho, hv⟩ := hempty first (by simpa using hnone)
    exact .inr (.inr ⟨hoptions.symm.trans (hoptions'.trans ho), hversion.symm.trans (hversion'.trans hv)⟩)
  · intro hcases order hperm
    have hne' : order ≠ [] := by
      intro h
      rw [h] at hperm
      exact hne hperm.nil_eq.symm
    have hid' : ∀ piece ∈ order, piece.executionId = id := fun piece h => hid piece (hperm.mem_iff.mp h)
    rcases hcases with hall | hno | ⟨rfl, rfl⟩
    · apply mergesTo_of_same hne' hid' _ fun _ => ⟨rfl, rfl⟩
      intro piece hpiece
      have hmem := hperm.mem_iff.mp hpiece
      exact hread piece hmem (hall piece hmem)
    · apply mergesTo_of_same hne' hid' fun piece hpiece => hempty piece (hno piece (hperm.mem_iff.mp hpiece))
      rintro ⟨piece, hpiece, hsome⟩
      rw [hno piece (hperm.mem_iff.mp hpiece)] at hsome
      cases hsome
    · apply mergesTo_of_same hne' hid' _ fun _ => ⟨rfl, rfl⟩
      intro piece hpiece
      by_cases hsome : piece.output.isSome
      · exact hread piece (hperm.mem_iff.mp hpiece) hsome
      · exact hempty piece (by simpa using hsome)

/-- A differencer for which only equal messages are equivalent. -/
def plainMessages : Messages where
  equivalentOptions o o' := o = o'
  equivalentOptions_refl _ := decide_eq_true rfl
  equivalentVersion v v' := v = v'
  equivalentVersion_refl _ := decide_eq_true rfl
  optionsText _ := []
  versionText _ := []
  pack s := s.message

/-- The piece of a worker whose results are these. -/
def pieceOf (results : List Result) : ExecutionResponse where
  output := some { options := some { requestsPerSecond := some 1 }, results, version := some ['1'] }
  executionId := ['i']

def completePiece : ExecutionResponse := pieceOf [{}]

def otherPiece : ExecutionResponse := pieceOf [{ name := ['n'] }, {}]

def failedPiece : ExecutionResponse where
  errorDetail := some { code := 13, message := ['e'] }
  executionId := ['i']

theorem merge_in_every_order_complete :
    (∀ order, order.Perm [completePiece, otherPiece] →
        MergesTo plainMessages ['i'] { requestsPerSecond := some 1 } ['1'] order) ↔
      (∀ piece ∈ [completePiece, otherPiece], piece.output.isSome) ∨
        (∀ piece ∈ [completePiece, otherPiece], piece.output = none) ∨
        (({ requestsPerSecond := some 1 } : CommandLineOptions) = {} ∧ ['1'] = ([] : Message)) := by
  refine merge_in_every_order_iff plainMessages ['i'] _ _ [completePiece, otherPiece] (by simp) (by decide) ?_
  intro piece hpiece output houtput
  rcases List.mem_pair.mp hpiece with rfl | rfl <;> cases houtput <;> exact ⟨rfl, rfl⟩

/-- A failed piece and a complete one do not merge, in either order. -/
theorem failed_piece_diverges :
    (∃ text, mergeExecutionResponses plainMessages ['i'] [failedPiece, completePiece] =
      .error ⟨.internal, text⟩) ∧
      ∃ text, mergeExecutionResponses plainMessages ['i'] [completePiece, failedPiece] =
        .error ⟨.internal, text⟩ :=
  ⟨⟨_, rfl⟩, ⟨_, rfl⟩⟩

end Nighthawk.Sink
