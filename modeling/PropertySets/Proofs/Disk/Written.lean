import PropertySets.Proofs.Disk.Confined

/-!
# Reading back what was written

A file that is written at a path is what the path leads to, whatever links there are on the way, and
it is read as it was written. The tree changes at one location only, and a way that comes to this
location ends there, so it goes the same steps before and after.

* `walk_of_written` — the way to a file that was written.
* `read_of_write` — what is read where a file was written.
-/

namespace PropertySets.FileTree

variable {t t' : FileTree} {p : Path} {l : Location}

/-- The way by which a file is created leads to the file. -/
theorem walk_of_written (h : Settled t t' l) (hBefore : t.FileOrFree l) {serial : Nat}
    {content : ByteArray} (hFile : t'.node? l = some (.file serial content)) {links : Nat}
    {slash : Bool} {here : Location} {names : List String} {spot : Spot}
    (hWalk : t.walk .created links slash here names = .ok spot) (hEnd : spot.location = l) :
    t'.walk .followed links slash here names = .ok (.occupied l) := by
  -- what a way goes on from is no file, so it is the same in both trees
  have hOther : ∀ {there node}, t.node? there = some node →
      (∀ serial content, node ≠ .file serial content) → t'.node? there = some node := by
    intro there node hNode hKind
    have hElsewhere : there ≠ l := by
      rintro rfl
      obtain ⟨serial, content, hSame⟩ := hBefore node hNode
      exact hKind serial content hSame
    rw [h.elsewhere there hElsewhere, hNode]
  rw [walk_eq_ok_iff] at hWalk ⊢
  induction hWalk with
  | here =>
    cases hEnd
    exact .here
  | dot _ ih => exact .dot (ih hEnd)
  | up _ ih => exact .up (ih hEnd)
  | free hFollow _ =>
    cases hEnd
    refine .file (hFollow.as nofun) hFile fun hSlash => ?_
    cases hSlash.symm.trans hFollow.slash_eq_false
  | directory hFollow hNode _ ih =>
    exact .directory (hFollow.as nofun) (hOther hNode (by simp)) (ih hEnd)
  | file hFollow _ hAsked =>
    cases hEnd
    exact .file (hFollow.as nofun) hFile fun hSlash => by cases hAsked hSlash
  | link _ _ hAsked => cases hAsked
  | followed hFollow hNode _ _ ih =>
    exact .followed (hFollow.as nofun) (hOther hNode (by simp)) (fun _ => rfl) (ih hEnd)

theorem resolve_of_written (h : Settled t t' l) (hBefore : t.FileOrFree l) {serial : Nat}
    {content : ByteArray} (hFile : t'.node? l = some (.file serial content)) {spot : Spot}
    (hResolve : t.resolve .created p = .ok spot) (hEnd : spot.location = l) :
    t'.resolve .followed p = .ok (.occupied l) := by
  rw [resolve_eq_walk hResolve, startOf_congr h.workingDirectory]
  exact walk_of_written h hBefore hFile (walk_of_resolve hResolve) hEnd

/-- Two changes at one location. -/
theorem Settled.trans {t₁ : FileTree} (h : Settled t t₁ l) (h' : Settled t₁ t' l) :
    Settled t t' l where
  workingDirectory := h'.workingDirectory.trans h.workingDirectory
  elsewhere l' hOther := (h'.elsewhere l' hOther).trans (h.elsewhere l' hOther)
  after := h'.after

/-- **Reading back.** What was written at a path is what is read there. -/
theorem read_of_write {content : ByteArray}
    (hWrite : (Disk.write p content : StateM FileTree _) t = (.ok (), t')) :
    t'.read p = .ok content := by
  obtain ⟨handle, t₁, hCreate, rfl⟩ := exists_of_write hWrite
  obtain ⟨spot, hResolve, hEnd, hBefore, hSettled, hEmpty⟩ := created_of_create hCreate
  rcases append_cases t₁ handle content with ⟨held, hBelow, hHeld, hAppend⟩ | ⟨hGone, -⟩
  · -- the file is empty when it is written into
    obtain ⟨-, rfl⟩ : handle.serial = handle.serial ∧ ByteArray.empty = held := by
      simpa using hEmpty.symm.trans hHeld
    have hFile : (t₁.append handle content).node? handle.location =
        some (.file handle.serial content) := by
      rw [hAppend, node?_put hBelow, if_pos rfl, ByteArray.empty_append]
    have hChange : Settled t (t₁.append handle content) handle.location := by
      rw [hAppend]
      exact hSettled.trans (settled_put hBelow t₁ _ _)
    have hFollowed := resolve_of_written hChange hBefore hFile hResolve hEnd
    exact read_eq_ok_iff.2 ⟨_, _, target_eq_ok_iff.2 ⟨hFollowed, hFile⟩⟩
  · exact absurd hEmpty (hGone _)

end PropertySets.FileTree
