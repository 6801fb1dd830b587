import RepairSearch.Proofs.Document.Rollback

/-!
# Edits in force

The numbers of the edits in force, document by document, are what mutations leave behind: making one
adds the number of its edit, if it makes one, and undoing it takes that number off again.
-/

namespace RepairSearch

namespace DocumentSet

/-- The numbers of the edits in force in a document of the set, the earliest first. -/
def inForce (ds : DocumentSet) (n : Nat) : List Nat :=
  ((ds.documents[n]?).map fun d => d.edits.map (·.number)).getD []

variable {ds ds' : DocumentSet} {n : Nat} {d : Document}

theorem inForce_eq (h : ds.documents[n]? = some d) : ds.inForce n = d.edits.map (·.number) := by
  rw [inForce, h]
  rfl

theorem inForce_of_content (h : ds.content = ds'.content) (n : Nat) :
    ds.inForce n = ds'.inForce n := by
  have hcontent (es : DocumentSet) : es.inForce n =
      ((es.content[n]?).map fun d => d.edits.map (·.number)).getD [] := by
    rw [inForce, content, List.getElem?_map, Option.map_map]
    rfl
  rw [hcontent, hcontent, h]

theorem inForce_replace_self (h : ds.documents[n]? = some d) (d' : Document) :
    (ds.replace n d').inForce n = d'.edits.map (·.number) := by
  have hlt := (List.getElem?_eq_some_iff.mp h).1
  exact inForce_eq (List.getElem?_set_self hlt)

theorem inForce_replace_of_ne {k : Nat} (h : n ≠ k) (ds : DocumentSet) (d' : Document) :
    (ds.replace n d').inForce k = ds.inForce k := by
  rw [inForce, replace, List.getElem?_set_ne h, inForce]

end DocumentSet

namespace Mutation

/-- The number of the edit that the mutation has in force, if it has one. -/
def edit? (m : Mutation) : Option Nat :=
  match m.stage with
  | .applied edit => edit
  | _ => none

/-- The number of the edit that the mutation has in force in a document. -/
def editOn? (n : Nat) (m : Mutation) : Option Nat := if m.document = n then m.edit? else none

/-- The numbers of the edits that mutations have in force in a document. -/
def editsOn (n : Nat) (ms : List Mutation) : List Nat := ms.filterMap (editOn? n)

theorem editsOn_concat (n : Nat) (ms : List Mutation) (m : Mutation) :
    editsOn n (ms ++ [m]) = editsOn n ms ++ (m.editOn? n).toList := by
  rw [editsOn, editsOn, List.filterMap_append]
  congr 1

/-- Making a mutation puts its edit in force, on top of those of its document. -/
theorem inForce_mutate {m m' : Mutation} {ds ds' : DocumentSet} (h : m.mutate ds = .ok (m', ds'))
    (n : Nat) : ds'.inForce n = ds.inForce n ++ (m'.editOn? n).toList := by
  obtain ⟨_, ⟨_, rfl, rfl⟩ | ⟨_, _, rfl, rfl⟩ | ⟨d, op, sp, _, hd, _, rfl, rfl⟩⟩ := mutate_eq_ok h
  · simp [editOn?, edit?]
  · simp [editOn?, edit?]
  · by_cases hn : m.faulty.document = n
    · subst hn
      rw [DocumentSet.inForce_replace_self hd, DocumentSet.inForce_eq hd]
      simp [Document.push, editOn?, edit?, document]
    · rw [DocumentSet.inForce_replace_of_ne hn]
      simp [editOn?, document, hn]

end Mutation

end RepairSearch
