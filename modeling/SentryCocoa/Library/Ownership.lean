import Mathlib.Data.List.AList

/-! Members that each have one owner, and how many members an owner has. -/
namespace SentryCocoa.Library.Ownership

variable {μ ω : Type*} [DecidableEq μ] [DecidableEq ω]

def members (owners : AList fun _ : μ => ω) (owner : ω) : ℕ :=
  owners.entries.countP fun entry => entry.2 = owner

omit [DecidableEq μ] in
@[simp] theorem members_empty (owner : ω) : members (∅ : AList fun _ : μ => ω) owner = 0 := rfl

theorem members_insert {owners : AList fun _ : μ => ω} {member : μ}
    (h : owners.lookup member = none) (owner other : ω) :
    members (owners.insert member owner) other =
      members owners other + if owner = other then 1 else 0 := by
  have hentries : (owners.insert member owner).entries = ⟨member, owner⟩ :: owners.entries :=
    AList.entries_insert_of_notMem (AList.lookup_eq_none.mp h)
  unfold members
  rw [hentries, List.countP_cons]
  simp only [decide_eq_true_eq]

theorem members_erase {owners : AList fun _ : μ => ω} {member : μ} {owner : ω}
    (h : owners.lookup member = some owner) (other : ω) :
    members (owners.erase member) other + (if owner = other then 1 else 0) =
      members owners other := by
  have hmem : member ∈ owners.entries.keys :=
    AList.mem_keys.mp (AList.lookup_isSome.mp (by rw [h]; rfl))
  obtain ⟨found, before, after, hbefore, hentries, herased⟩ := List.exists_of_kerase hmem
  have hfound : found = owner := by
    change List.dlookup member owners.entries = some owner at h
    rw [hentries, List.dlookup_append, List.dlookup_eq_none.mpr hbefore] at h
    simpa using h
  unfold members
  change (List.kerase member owners.entries).countP _ + _ = _
  rw [herased, hentries, hfound, List.countP_append, List.countP_append, List.countP_cons]
  simp only [decide_eq_true_eq]
  omega

theorem members_pos {owners : AList fun _ : μ => ω} {member : μ} {owner : ω}
    (h : owners.lookup member = some owner) : 0 < members owners owner := by
  have herase := members_erase h owner
  rw [if_pos rfl] at herase
  omega

end SentryCocoa.Library.Ownership
