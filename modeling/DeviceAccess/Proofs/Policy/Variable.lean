import Mathlib.Data.List.Basic
import DeviceAccess.Policy.Permission

/-!
# Reading policy variables

The pieces of a resource put together again are the resource (`written_pieces`): cutting loses
nothing.  A resource without a text of a variable's shape is therefore its own substitution, and
the test by which `Permission.resolve` skips such resources changes no result
(`Permission.resource_resolve_ofPolicy`).
-/

namespace DeviceAccess
namespace PolicyVariable

/-- A piece as it is written in the resource. -/
def Piece.written : Piece → List Char
  | candidate token => token
  | plain c => [c]

theorem append_of_candidate? {text token rest : List Char}
    (h : candidate? text = some (token, rest)) : text = token ++ rest := by
  unfold candidate? at h
  split at h
  · next body =>
      simp only at h
      split at h
      · next path _ hpath =>
          split at h
          · next rest' _ hrest =>
              simp only [Option.some.injEq, Prod.mk.injEq] at h
              obtain ⟨rfl, rfl⟩ := h
              have hbody := List.takeWhile_append_dropWhile (p := isShapeLetter) (l := body)
              have hinner := List.takeWhile_append_dropWhile
                (p := fun c => isShapeLetter c || c = '.') (l := path)
              rw [hpath] at hbody
              rw [hrest] at hinner
              simp only [List.cons_append, List.append_assoc, List.nil_append, hinner, hbody]
          · exact nomatch h
      · exact nomatch h
  · exact nomatch h

/-- Cutting a resource into pieces loses nothing. -/
theorem written_pieces (text : List Char) : (pieces text).flatMap Piece.written = text := by
  fun_induction pieces text with
  | case1 text token rest h ih =>
      rw [List.flatMap_cons, ih]
      exact (append_of_candidate? h).symm
  | case2 => rfl
  | case3 c rest h ih =>
      rw [List.flatMap_cons, ih]
      rfl

theorem mem_candidates {resource token : String} :
    token ∈ candidates resource ↔ Piece.candidate token.toList ∈ pieces resource.toList := by
  unfold candidates
  rw [OrderedSet.mem_ofList, List.mem_filterMap]
  constructor
  · rintro ⟨piece, hmem, h⟩
    cases piece with
    | plain c => cases h
    | candidate t =>
        obtain rfl := Option.some.inj h
        rwa [String.toList_ofList]
  · intro h
    exact ⟨_, h, by simp⟩

/-- A resource in which nothing has the shape of a variable stays as it is. -/
theorem substitute_of_candidates_isEmpty {resource : String} (session : Session)
    (h : (candidates resource).isEmpty = true) : substitute resource session = resource := by
  have hplain : ∀ piece ∈ pieces resource.toList, piece.fill session = piece.written := by
    intro piece hmem
    cases piece with
    | plain c => rfl
    | candidate token =>
        have hin : String.ofList token ∈ candidates resource := by
          rwa [mem_candidates, String.toList_ofList]
        rw [OrderedSet.isEmpty, List.isEmpty_iff] at h
        rw [OrderedSet.mem_def, h] at hin
        cases hin
  unfold substitute
  rw [List.flatMap_congr hplain, written_pieces, String.ofList_toList]

end PolicyVariable

/-- Resolving a permission of a policy substitutes its resource, whether or not the resource was
seen to hold a variable. -/
theorem Permission.resource_resolve_ofPolicy (principal operation resource : String)
    (session : Session) : ((ofPolicy principal operation resource).resolve session).resource =
      PolicyVariable.substitute resource session := by
  unfold resolve ofPolicy
  split
  · next h => exact (PolicyVariable.substitute_of_candidates_isEmpty session h).symm
  · rfl

@[simp] theorem Permission.operation_resolve (p : Permission) (session : Session) :
    (p.resolve session).operation = p.operation := by
  unfold resolve
  split <;> rfl

end DeviceAccess
