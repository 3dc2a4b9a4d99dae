import PropertySets.Proofs.Disk.Unlinked

/-!
# One program on two trees

A program that clears paths, creates files at them and writes into these files does the same on any
two trees without links on which it goes through, whatever else they hold. The two runs create their
files at the same locations in the same order, so the serials of corresponding files are the same
number of steps away from where the two runs started. A handle of the one run then reaches its file
exactly when that of the other run does.

* `Twins`, `TwinHandles` — the two trees and the handles of corresponding files.
* `Twins.create`, `Twins.append`, `Twins.replace` — the operations, carried out on both trees.
* `Twins.read_eq`, `Twins.exists_read` — what is read at the path of a created file.
-/

namespace PropertySets.FileTree

/-- Trees in which one program has created files at the locations `made`. The serials started with
`first` in the one tree and with `second` in the other. -/
structure Twins (first second : Nat) (made : List Location) (t₁ t₂ : FileTree) : Prop where
  unlinked₁ : t₁.Unlinked
  unlinked₂ : t₂.Unlinked
  serials : ∃ k, t₁.nextSerial = first + k ∧ t₂.nextSerial = second + k
  files : ∀ l ∈ made, ∃ k content, t₁.node? l = some (.file (first + k) content) ∧
    t₂.node? l = some (.file (second + k) content)

/-- The handles of corresponding files. -/
structure TwinHandles (first second : Nat) (made : List Location) (h₁ h₂ : Handle) : Prop where
  made : h₁.location ∈ made
  location : h₂.location = h₁.location
  serials : ∃ k, h₁.serial = first + k ∧ h₂.serial = second + k

variable {first second : Nat} {made made' : List Location} {t₁ t₂ t₁' t₂' : FileTree}
  {h₁ h₂ : Handle} {p : Path} {l : Location}

theorem TwinHandles.mono (h : TwinHandles first second made h₁ h₂) (hMore : made ⊆ made') :
    TwinHandles first second made' h₁ h₂ :=
  { h with made := hMore h.made }

theorem nextSerial_append (t : FileTree) (h : Handle) (content : ByteArray) :
    (t.append h content).nextSerial = t.nextSerial := by
  rcases append_cases t h content with ⟨held, -, -, hAppend⟩ | ⟨-, hAppend⟩
  · rw [hAppend]
    rfl
  · rw [hAppend]

/-- What is written through a handle does not come to the file of another one. -/
theorem node?_append_of_other {t : FileTree} {h : Handle} {serial : Nat} {content : ByteArray}
    (hNode : t.node? l = some (.file serial content)) (hOther : h.serial ≠ serial)
    (more : ByteArray) : (t.append h more).node? l = some (.file serial content) := by
  rcases append_cases t h more with ⟨held, hBelow, hHeld, hAppend⟩ | ⟨-, hAppend⟩
  · have hElsewhere : l ≠ h.location := by
      rintro rfl
      rw [hNode] at hHeld
      cases hHeld
      exact hOther rfl
    rw [hAppend, node?_put hBelow, if_neg hElsewhere, hNode]
  · rw [hAppend, hNode]

theorem Unlinked.append {t : FileTree} (hUnlinked : t.Unlinked) (h : Handle)
    (content : ByteArray) : (t.append h content).Unlinked :=
  hUnlinked.ofFrame (append_keepsFiles t h content).frame

namespace Twins

theorem start (hUnlinked₁ : t₁.Unlinked) (hUnlinked₂ : t₂.Unlinked) :
    Twins t₁.nextSerial t₂.nextSerial [] t₁ t₂ :=
  ⟨hUnlinked₁, hUnlinked₂, ⟨0, rfl, rfl⟩, nofun⟩

/-- The next file is created on both sides at one location. -/
theorem renew (h : Twins first second made t₁ t₂) (hRenewed₁ : Renewed t₁ l h₁ t₁')
    (hRenewed₂ : Renewed t₂ l h₂ t₂') :
    Twins first second (l :: made) t₁' t₂' ∧ TwinHandles first second (l :: made) h₁ h₂ := by
  obtain ⟨k, hSerial₁, hSerial₂⟩ := h.serials
  constructor
  · refine ⟨h.unlinked₁.ofFrame hRenewed₁.change.sameFrame,
      h.unlinked₂.ofFrame hRenewed₂.change.sameFrame, ⟨k + 1, ?_, ?_⟩, fun l' hMem => ?_⟩
    · have hNext := hRenewed₁.nextSerial
      omega
    · have hNext := hRenewed₂.nextSerial
      omega
    by_cases hHere : l' = l
    · -- whatever was at the location, both sides have the new file there now
      subst hHere
      exact ⟨k, ByteArray.empty, hSerial₁ ▸ hRenewed₁.node, hSerial₂ ▸ hRenewed₂.node⟩
    · rw [hRenewed₁.change.elsewhere l' hHere, hRenewed₂.change.elsewhere l' hHere]
      exact h.files l' ((List.mem_cons.1 hMem).resolve_left hHere)
  · rw [hRenewed₁.handle_eq, hRenewed₂.handle_eq]
    exact ⟨List.mem_cons_self, rfl, k, hSerial₁, hSerial₂⟩

theorem create (h : Twins first second made t₁ t₂) (hAbsolute : p.isAbsolute = true)
    {cleared₁ cleared₂ : FileTree}
    (hClear₁ : (Disk.clear p : StateM FileTree _) t₁ = (.ok (), cleared₁))
    (hCreate₁ : (Disk.create p : StateM FileTree _) cleared₁ = (.ok h₁, t₁'))
    (hClear₂ : (Disk.clear p : StateM FileTree _) t₂ = (.ok (), cleared₂))
    (hCreate₂ : (Disk.create p : StateM FileTree _) cleared₂ = (.ok h₂, t₂')) :
    Twins first second (place [] p :: made) t₁' t₂' ∧
      TwinHandles first second (place [] p :: made) h₁ h₂ := by
  have hRenewed₁ := h.unlinked₁.renewed_of_create hClear₁ hCreate₁
  have hRenewed₂ := h.unlinked₂.renewed_of_create hClear₂ hCreate₂
  rw [place_of_isAbsolute hAbsolute] at hRenewed₁ hRenewed₂
  exact h.renew hRenewed₁ hRenewed₂

/-- What is written through corresponding handles comes to both files, or to none. -/
theorem append (h : Twins first second made t₁ t₂)
    (hHandles : TwinHandles first second made h₁ h₂) (more : ByteArray) :
    Twins first second made (t₁.append h₁ more) (t₂.append h₂ more) := by
  obtain ⟨j, hHandle₁, hHandle₂⟩ := hHandles.serials
  obtain ⟨k, held, hNode₁, hNode₂⟩ := h.files h₁.location hHandles.made
  have hBelow : h₁.location ≠ [] := ne_nil_of_node? (t := t₁) (by simp [hNode₁])
  refine ⟨h.unlinked₁.append h₁ more, h.unlinked₂.append h₂ more, ?_, fun l hMem => ?_⟩
  · rw [nextSerial_append, nextSerial_append]
    exact h.serials
  -- the files that are there now are those of the handles, on both sides or on none
  by_cases hSame : k = j
  · have hAppend₁ : t₁.append h₁ more = t₁.put h₁.location (.file (first + k) (held ++ more)) := by
      rw [FileTree.append, hNode₁]
      exact if_pos (by omega)
    have hAppend₂ : t₂.append h₂ more = t₂.put h₁.location (.file (second + k) (held ++ more)) := by
      rw [FileTree.append, hHandles.location, hNode₂]
      exact if_pos (by omega)
    rw [hAppend₁, hAppend₂, node?_put hBelow, node?_put hBelow]
    by_cases hHere : l = h₁.location
    · rw [if_pos hHere, if_pos hHere]
      exact ⟨k, held ++ more, rfl, rfl⟩
    · rw [if_neg hHere, if_neg hHere]
      exact h.files l hMem
  · have hAppend₁ : t₁.append h₁ more = t₁ := by
      rw [FileTree.append, hNode₁]
      exact if_neg (by omega)
    have hAppend₂ : t₂.append h₂ more = t₂ := by
      rw [FileTree.append, hHandles.location, hNode₂]
      exact if_neg (by omega)
    rw [hAppend₁, hAppend₂]
    exact h.files l hMem

theorem replace (h : Twins first second made t₁ t₂) (hAbsolute : p.isAbsolute = true)
    {content : ByteArray}
    (hReplace₁ : (Disk.replace p content : StateM FileTree _) t₁ = (.ok (), t₁'))
    (hReplace₂ : (Disk.replace p content : StateM FileTree _) t₂ = (.ok (), t₂')) :
    Twins first second (place [] p :: made) t₁' t₂' := by
  obtain ⟨cleared₁, h₁, created₁, hClear₁, hCreate₁, rfl⟩ := exists_of_replace hReplace₁
  obtain ⟨cleared₂, h₂, created₂, hClear₂, hCreate₂, rfl⟩ := exists_of_replace hReplace₂
  obtain ⟨hCreated, hHandles⟩ := h.create hAbsolute hClear₁ hCreate₁ hClear₂ hCreate₂
  exact hCreated.append hHandles content

/-- What is read at the path of a created file is the same on both sides. -/
theorem read_eq (h : Twins first second made t₁ t₂) (hAbsolute : p.isAbsolute = true)
    (hMade : place [] p ∈ made) {content₁ content₂ : ByteArray}
    (hRead₁ : t₁.read p = .ok content₁) (hRead₂ : t₂.read p = .ok content₂) :
    t₂.read p = t₁.read p := by
  obtain ⟨serial₁, hNode₁⟩ := h.unlinked₁.node?_of_read hRead₁
  obtain ⟨serial₂, hNode₂⟩ := h.unlinked₂.node?_of_read hRead₂
  rw [place_of_isAbsolute hAbsolute] at hNode₁ hNode₂
  -- a file that was made holds the same on both sides
  obtain ⟨k, content, hFile₁, hFile₂⟩ := h.files _ hMade
  have hContent₁ : content₁ = content := by
    rw [hFile₁] at hNode₁
    cases hNode₁
    rfl
  have hContent₂ : content₂ = content := by
    rw [hFile₂] at hNode₂
    cases hNode₂
    rfl
  rw [hRead₁, hRead₂, hContent₁, hContent₂]

/-- What can be read on the one side can be read on the other, where the way is the same. -/
theorem exists_read (h : Twins first second made t₁ t₂) (hFrame : SameFrame t₁ t₂)
    (hAbsolute : p.isAbsolute = true) (hMade : place [] p ∈ made) {content : ByteArray}
    (hRead : t₁.read p = .ok content) : ∃ content', t₂.read p = .ok content' := by
  obtain ⟨k, held, -, hFile⟩ := h.files _ hMade
  rw [← place_of_isAbsolute hAbsolute t₁.workingDirectory] at hFile
  exact ⟨held, h.unlinked₁.read_of_frame hFrame hRead hFile⟩

end Twins

end PropertySets.FileTree
