import Declang.Proofs.Arena.Validity
namespace Declang.Arena

/-- What each error of the integrity check tells about the links below the root. -/
def Fault (arena : Arena) : IntegrityError → Prop
  | .rootHasParent parent => arena.parent? root = some parent
  | .danglingChild parent child =>
    arena.Reachable parent ∧ child ∈ arena.children parent ∧ arena.size ≤ child
  | .parentMismatch parent child recorded =>
    arena.Reachable parent ∧ child ∈ arena.children parent ∧
      (∃ node, arena.get? child = some node ∧ node.parent = recorded) ∧ recorded ≠ some parent
  | .sharedChild child =>
    ∃ parent, arena.parent? child = some parent ∧ arena.Reachable parent ∧
      2 ≤ (arena.children parent).count child

variable {arena : Arena}

theorem of_markChildren_eq_error {parent : NodeId} {children : List NodeId}
    {seen : Vector Bool arena.size} {e : IntegrityError}
    (h : arena.markChildren parent children seen = .error e) :
    ∃ front child later, children = front ++ child :: later ∧
      (arena.size ≤ child ∧ e = .danglingChild parent child ∨
        (∃ node, arena.get? child = some node ∧ node.parent ≠ some parent ∧
          e = .parentMismatch parent child node.parent) ∨
        arena.parent? child = some parent ∧ (child ∈ front ∨ seen[child]? = some true) ∧
          e = .sharedChild child) := by
  induction children generalizing seen with
  | nil => cases h
  | cons child children ih =>
    rw [markChildren] at h
    split at h
    case isFalse hmissing =>
      cases h
      exact ⟨[], child, children, rfl, .inl ⟨Nat.le_of_not_lt hmissing, rfl⟩⟩
    case isTrue hlt =>
      have hnode : arena.get? child = some arena.nodes[child] := Array.getElem?_eq_getElem hlt
      simp only at h
      split at h
      case isTrue hother =>
        cases h
        exact ⟨[], child, children, rfl, .inr (.inl ⟨_, hnode, hother, rfl⟩)⟩
      case isFalse hrecorded =>
        split at h
        case isTrue hseen =>
          have hparent : arena.parent? child = some parent := by
            rw [parent?_eq hnode, not_not.1 hrecorded]
          cases h
          refine ⟨[], child, children, rfl, .inr (.inr ⟨hparent, .inr ?_, rfl⟩)⟩
          rw [Vector.getElem?_eq_getElem hlt, hseen]
        case isFalse hunseen =>
          obtain ⟨front, other, later, rfl, hfault⟩ := ih h
          refine ⟨child :: front, other, later, rfl, ?_⟩
          rcases hfault with hdangling | hmismatch | ⟨hparent, hmarked, rfl⟩
          · exact .inl hdangling
          · exact .inr (.inl hmismatch)
          · refine .inr (.inr ⟨hparent, ?_, rfl⟩)
            rcases hmarked with hfront | hmarked
            · exact .inl (List.mem_cons_of_mem _ hfront)
            · by_cases heq : child = other
              · exact .inl (heq ▸ List.mem_cons_self ..)
              · rw [Vector.getElem?_set_ne hlt heq] at hmarked
                exact .inr hmarked

/-- A child is marked at the visit of the parent that it records, so a child that is found marked at
that visit stands before in the same list. -/
theorem Frontier.fault {seen : Vector Bool arena.size} {id : NodeId} {pending : List NodeId}
    {e : IntegrityError} (h : arena.Frontier seen (id :: pending))
    (herror : arena.markChildren id (arena.children id) seen = .error e) : arena.Fault e := by
  have hid := h.reached (List.mem_cons_self ..)
  obtain ⟨front, child, later, hchildren, hfault⟩ := of_markChildren_eq_error herror
  have hlisted : child ∈ arena.children id := by
    rw [hchildren]
    exact List.mem_append_right _ (List.mem_cons_self ..)
  rcases hfault with ⟨hmissing, rfl⟩ | ⟨node, hnode, hother, rfl⟩ | ⟨hparent, hseen, rfl⟩
  · exact ⟨hid, hlisted, hmissing⟩
  · exact ⟨hid, hlisted, ⟨node, hnode, rfl⟩, hother⟩
  · refine ⟨id, hparent, hid, ?_⟩
    rcases hseen with hfront | hseen
    · rw [hchildren, List.count_append, List.count_cons_self]
      have hbefore := List.count_pos_iff.2 hfront
      omega
    · exact absurd (List.mem_cons_self ..) (h.visited hseen hparent).2

theorem Frontier.fault_of_scan {seen : Vector Bool arena.size} {pending : List NodeId}
    {e : IntegrityError} (h : arena.Frontier seen pending)
    (herror : arena.scan seen pending = .error e) : arena.Fault e := by
  fun_induction arena.scan seen pending with
  | case1 => cases herror
  | case2 seen id pending error hmark =>
    cases herror
    exact h.fault hmark
  | case3 seen id pending marked hmark ih => exact ih (h.step hmark) herror

/-- Every error of the integrity check names a fault that is there. A node that two nodes list, or
that lies on a circle, is no shared child unless its own parent lists it twice. -/
theorem fault_of_validate (arena : Arena) :
    (∀ e, arena.validate = .error e → arena.Fault e) ∧
      (∀ parent, arena.validate = .error (.rootHasParent parent) ↔
        arena.parent? root = some parent) ∧
      ((∀ id, arena.Reachable id → (arena.children id).Nodup) →
        ∀ child, arena.validate ≠ .error (.sharedChild child)) := by
  have hfault {e : IntegrityError} (h : arena.validate = .error e) : arena.Fault e := by
    rw [validate] at h
    split at h
    · next hroot =>
      cases h
      exact hroot
    · next hroot => exact (Frontier.start hroot).fault_of_scan h
  refine ⟨fun e h => hfault h, ?_, ?_⟩
  · intro parent
    constructor
    · intro h
      exact hfault h
    · intro hroot
      rw [parent?] at hroot
      rw [validate, hroot]
  · intro hdistinct child h
    obtain ⟨parent, -, hparent, htwice⟩ := hfault h
    have honce := List.nodup_iff_count_le_one.1 (hdistinct parent hparent) child
    omega

example : validate? ⟨#[⟨.program, none, [1, 2]⟩, ⟨.return_, some 0, [2]⟩, ⟨.return_, some 0, []⟩],
    by decide⟩ = some (.error (.parentMismatch 1 2 (some 0))) := by decide

example : validate? ⟨#[⟨.program, none, [1, 1]⟩, ⟨.return_, some 0, []⟩], by decide⟩ =
    some (.error (.sharedChild 1)) := by decide

end Declang.Arena
