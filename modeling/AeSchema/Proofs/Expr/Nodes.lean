import AeSchema.Proofs.Expr.Contains
import AeSchema.Proofs.Expr.Entries
import Mathlib.Data.List.Perm.Subperm

/-! The expressions of a tree, as they are met on the walk through it. -/

namespace AeSchema

variable {Origin : Type}

mutual

/-- A parent before its children and siblings in their order. -/
def Expr.nodes (expr : Expr Origin) : List (Expr Origin) :=
  expr ::
    match expr with
    | .definition _ value _ | .route _ value _ | .response _ _ value _ => value.nodes
    | .format entries _ => entries.nodes
    | .arrayOf element _ => element.nodes
    | .reference .. | .url .. => []

def Value.nodes : Value Origin → List (Expr Origin)
  | .expr expr => expr.nodes
  | .text _ => []

def Format.nodes : Format Origin → List (Expr Origin)
  | .empty => []
  | .entry _ value rest => value.nodes ++ rest.nodes

end

def programNodes (program : List (Expr Origin)) : List (Expr Origin) :=
  program.flatMap Expr.nodes

theorem Format.nodes_eq_flatMap (format : Format Origin) :
    format.nodes = format.toList.flatMap (·.2.nodes) := by
  cases format with
  | empty => rfl
  | entry key value rest => rw [nodes, toList, List.flatMap_cons, rest.nodes_eq_flatMap]

theorem Expr.nodes_eq_cons (expr : Expr Origin) : expr.nodes = expr :: expr.nodes.tail := by
  cases expr <;> rfl

theorem Expr.self_mem_nodes (expr : Expr Origin) : expr ∈ expr.nodes := by
  rw [nodes_eq_cons]
  exact List.mem_cons_self ..

theorem Expr.Holds.nodes_subset {expr : Expr Origin} {value : Value Origin}
    (holds : expr.Holds value) : value.nodes ⊆ expr.nodes.tail := by
  cases holds with
  | definition | route | response | element => exact List.Subset.refl _
  | entry member =>
      intro node within
      rw [Expr.nodes, List.tail_cons, Format.nodes_eq_flatMap, List.mem_flatMap]
      exact ⟨_, member, within⟩

section Insertions

variable {format : Format Origin} {entries : List (String × Value Origin)}

theorem Format.subperm_nodes_insert (key : String) (value : Value Origin)
    (format : Format Origin) :
    (format.insert key value).nodes.Subperm (format.nodes ++ value.nodes) := by
  match format with
  | .empty =>
      simp only [insert, nodes, List.append_nil, List.nil_append]
      rfl
  | .entry first old rest =>
      rw [insert]
      split
      next =>
        rw [nodes, nodes, List.append_assoc]
        have others : (value.nodes ++ rest.nodes).Subperm (rest.nodes ++ value.nodes) :=
          List.perm_append_comm.subperm
        exact others.trans (List.sublist_append_right old.nodes _).subperm
      next =>
        rw [nodes, nodes, List.append_assoc, List.subperm_append_left]
        exact subperm_nodes_insert key value rest

theorem Format.subperm_nodes_insertAll (format : Format Origin) :
    (format.insertAll entries).nodes.Subperm (format.nodes ++ entries.flatMap (·.2.nodes)) := by
  induction entries generalizing format with
  | nil =>
      rw [List.flatMap_nil, List.append_nil]
      rfl
  | cons entry entries ih =>
      rw [List.flatMap_cons, ← List.append_assoc]
      refine (ih (format.insert entry.1 entry.2)).trans ?_
      rw [List.subperm_append_right]
      exact subperm_nodes_insert entry.1 entry.2 format

theorem Format.subperm_nodes_ofList :
    (ofList entries).nodes.Subperm (entries.flatMap (·.2.nodes)) :=
  subperm_nodes_insertAll empty

theorem Format.nodes_ofList (distinct : (entries.map (·.1)).Nodup) :
    (ofList entries).nodes = entries.flatMap (·.2.nodes) := by
  have unused : ((empty : Format Origin).keys ++ entries.map (·.1)).Nodup := distinct
  rw [nodes_eq_flatMap, ofList, toList_insertAll_new unused, toList, List.nil_append]

end Insertions

end AeSchema
