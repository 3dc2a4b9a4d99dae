import PropertySets.Proofs.Document.Omissions

/-!
# Where flaws of documents are from

Whatever is wrong with a document, its flaws name the document and no other; and the schema folder
that it is read for decides about the version of the definition only, so it neither makes a document
readable nor changes what is reported. A file without a definition is reported once.

* `AllFrom` — flaws that name one source; `allFrom_parseBytes` — those of a file name the file.
* `parseBytes_folder` — the schema folder does not matter for what is reported.
* `parseBytes_of_none` — a file without a definition has one flaw, an omission.
-/

namespace PropertySets

open Xml

/-- All flaws name the source. -/
def AllFrom (source : String) (flaws : Diagnostics) : Prop := ∀ flaw ∈ flaws, flaw.source = source

theorem AllFrom.nil (source : String) : AllFrom source [] := nofun

theorem AllFrom.single {source : String} {flaw : Diagnostic} (h : flaw.source = source) :
    AllFrom source [flaw] := by
  intro other hMem
  rwa [List.mem_singleton.1 hMem]

namespace Document

variable {source : String}

/-! ## Flaws name their document -/

theorem allFrom_readSingle (path : String) (n : Node) :
    AllFrom source (readSingle source path n).2 := by
  unfold readSingle
  split
  · exact .nil source
  · exact .single rfl

theorem allFrom_readReference (path : String) (n : Node) :
    AllFrom source (readReference source path n).2 := by
  unfold readReference
  dsimp only
  split
  · exact .nil source
  · exact .single rfl

theorem allFrom_readEnumerated (path propertyName : String) (n : Node) :
    AllFrom source (readEnumerated source path propertyName n).2 := by
  rcases readEnumerated_cases source path propertyName n with
    ⟨-, -, hRead⟩ | ⟨-, -, hRead⟩ | ⟨-, -, hRead⟩ | ⟨name, -, -, hRead⟩
  · rw [hRead]
    exact .single rfl
  · rw [hRead]
    exact .single rfl
  · rw [hRead]
    exact .single rfl
  · rw [hRead]
    dsimp only
    split
    · exact .single rfl
    · exact .nil source

theorem allFrom_readShape (path propertyName : String) (n : Node) :
    AllFrom source (readShape source path propertyName n).2 := by
  unfold readShape
  split
  · exact allFrom_readSingle path n
  · exact allFrom_readReference path n
  · exact allFrom_readEnumerated path propertyName n
  · exact .nil source
  · exact .nil source
  · exact .nil source
  · exact .single rfl

theorem allFrom_gather {α β : Type} {reader : β → Option α × Diagnostics} {elements : List β}
    (h : ∀ n ∈ elements, AllFrom source (reader n).2) :
    AllFrom source (gather (elements.map reader)).2 := by
  intro flaw hMem
  obtain ⟨result, hResult, hFlaw⟩ := List.mem_flatMap.1 hMem
  obtain ⟨n, hElement, rfl⟩ := List.mem_map.1 hResult
  exact h n hElement flaw hFlaw

/-- The flaws of a property name its document, however deep complex properties are opened. -/
theorem allFrom_readProperty (depth : Nat) (owner : String) (n : Node) :
    AllFrom source (readProperty source depth owner n).2 := by
  induction depth, owner, n using readProperty_induction source with
  | nameless _ hRead =>
    rw [hRead]
    exact .single rfl
  | untyped _ _ hRead =>
    rw [hRead]
    exact .single rfl
  | unnamed _ _ _ _ hRead =>
    rw [hRead]
    exact .single rfl
  | closed _ _ _ _ hRead =>
    rw [hRead]
    exact .nil source
  | opened _ _ _ _ hRead ih =>
    rw [hRead]
    -- the flaws of what is held were made for the same document
    exact allFrom_gather fun m _ => ih m
  | shaped _ _ _ hRead =>
    rw [hRead]
    exact allFrom_readShape _ _ _

theorem allFrom_readElement (folder : String) (root : Node) :
    AllFrom source (readElement folder source root).2 := by
  rcases readElement_cases source root with ⟨flaw, hSource, -, hRead⟩ | ⟨name, raw, -, -, -, hRead⟩
  · rw [hRead]
    exact .single hSource
  · rw [hRead]
    exact allFrom_gather fun n _ => allFrom_readProperty complexDepth name n

theorem allFrom_read (text folder : String) : AllFrom source (read text folder source).2 := by
  rcases read_cases text source with ⟨flaw, hSource, -, hRead⟩ | ⟨root, -, hRead⟩
  · rw [hRead]
    exact .single hSource
  · rw [hRead]
    exact allFrom_readElement folder root

/-! ## Folders do not matter -/

/-- The folder that an element is read for decides about the version of its definition only. -/
theorem readElement_folder (folder folder' : String) (root : Node) :
    (readElement folder source root).2 = (readElement folder' source root).2 ∧
      ((readElement folder source root).1 = none ↔ (readElement folder' source root).1 = none) := by
  rcases readElement_cases source root with ⟨flaw, -, -, hRead⟩ | ⟨name, raw, -, -, -, hRead⟩
  · rw [hRead folder, hRead folder']
    exact ⟨rfl, Iff.rfl⟩
  · rw [hRead folder, hRead folder']
    exact ⟨rfl, iff_of_false (Option.some_ne_none _) (Option.some_ne_none _)⟩

theorem read_folder (text folder folder' : String) :
    (read text folder source).2 = (read text folder' source).2 ∧
      ((read text folder source).1 = none ↔ (read text folder' source).1 = none) := by
  rcases read_cases text source with ⟨flaw, -, -, hRead⟩ | ⟨root, -, hRead⟩
  · rw [hRead folder, hRead folder']
    exact ⟨rfl, Iff.rfl⟩
  · rw [hRead folder, hRead folder']
    exact readElement_folder folder folder' root

end Document

/-! ## Files -/

theorem allFrom_parseBytes (bytes : ByteArray) (folder source : String) :
    AllFrom source (parseBytes bytes folder source).2 := by
  rcases parseBytes_cases bytes source with ⟨flaw, hSource, -, hRead⟩ | ⟨text, -, hRead⟩
  · rw [hRead]
    exact .single hSource
  · rw [hRead]
    exact Document.allFrom_read text folder

theorem parseBytes_folder (bytes : ByteArray) (folder folder' source : String) :
    (parseBytes bytes folder source).2 = (parseBytes bytes folder' source).2 ∧
      ((parseBytes bytes folder source).1 = none ↔ (parseBytes bytes folder' source).1 = none) := by
  rcases parseBytes_cases bytes source with ⟨flaw, -, -, hRead⟩ | ⟨text, -, hRead⟩
  · rw [hRead folder, hRead folder']
    exact ⟨rfl, Iff.rfl⟩
  · rw [hRead folder, hRead folder']
    exact Document.read_folder text folder folder'

/-- A file without a definition is reported by one omission that names it, in whatever folder. -/
theorem parseBytes_of_none {bytes : ByteArray} {folder source : String}
    (hNone : (parseBytes bytes folder source).1 = none) :
    ∃ flaw : Diagnostic, flaw.source = source ∧ flaw.severity = .omission ∧
      ∀ folder', (parseBytes bytes folder' source).1 = none ∧
        (parseBytes bytes folder' source).2 = [flaw] := by
  have hReported : ∃ flaw, (parseBytes bytes folder source).2 = [flaw] ∧
      flaw.severity = .omission := by
    rcases parseBytes_cases bytes source with ⟨flaw, -, hSeverity, hRead⟩ | ⟨text, -, hRead⟩
    · rw [hRead folder]
      exact ⟨flaw, rfl, hSeverity⟩
    · rw [hRead folder] at hNone ⊢
      exact Document.read_of_none hNone
  obtain ⟨flaw, hFlaws, hSeverity⟩ := hReported
  refine ⟨flaw, ?_, hSeverity, ?_⟩
  · exact allFrom_parseBytes bytes folder source flaw (hFlaws ▸ List.mem_singleton_self flaw)
  · -- the folder decides neither whether there is a definition nor what is reported
    intro folder'
    obtain ⟨hSame, hIff⟩ := parseBytes_folder bytes folder folder' source
    exact ⟨hIff.1 hNone, hSame ▸ hFlaws⟩

end PropertySets
