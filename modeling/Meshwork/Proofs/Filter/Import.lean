import Meshwork.Filter.Import
import Meshwork.Proofs.Container.Payload
import Meshwork.Proofs.Edit.Effect
import Meshwork.Proofs.FileSystem.Places
import Meshwork.Proofs.Filter.Regular
import Meshwork.Proofs.Geometry.Manifold
import Meshwork.Proofs.Mesh.Size
import Meshwork.Proofs.Store.Outline

/-!
# What an import brings in

The import of a mesh asks for two edits: groups down to the geometry, and the
geometry with its two matrices and the array of normals. The plan announces the
same around an empty geometry.

What is brought in is valid and everything in it fits
(`ImportOptions.exists_subtree`), since a mesh is no larger than its file and its
numbers of vertices and faces are words. Whether the two edits are accepted
depends on the way to the geometry (`ImportOptions.acceptedEach_iff`), and the
content of the geometry has no part in it.
-/

namespace Meshwork

/-- **Every file has a size**: fewer bytes than a word can count. From this it follows that the
numbers of vertices and faces that are read from a file are words. -/
def FileSystem.IsSized (files : FileSystem) : Prop :=
  ∀ place contents, files.at? place = some (.file contents) → contents.length < UInt64.size

/-- What is not listed is no file. -/
theorem FileSystem.isSized_of_entries {files : FileSystem}
    (h : ∀ place contents, (place, .file contents) ∈ files.entries → contents.length < UInt64.size) :
    files.IsSized := by
  intro place contents hplace
  rw [at?] at hplace
  split at hplace
  · cases hplace
  · exact h place contents (mem_of_lookup hplace)

theorem FileSystem.IsSized.length_lt {files : FileSystem} (h : files.IsSized) {path : String}
    {bytes : Bytes} (hread : files.read path = .ok bytes) : bytes.length < UInt64.size := by
  rw [read] at hread
  obtain ⟨entry, hentry, hread⟩ := bind_eq_ok_iff.1 hread
  rw [stat] at hentry
  obtain ⟨place, -, hentry⟩ := bind_eq_ok_iff.1 hentry
  split at hentry
  · cases hentry
  · rename_i found hfound
    obtain rfl := pure_eq_ok_iff.1 hentry
    split at hread
    · cases hread
    · obtain rfl := pure_eq_ok_iff.1 hread
      exact h place _ hfound

namespace Filter.ImportOptions

/-! ## The options

The options are read from arguments that were bound, so none is missing and each has its
kind. What is left to go wrong are names that make no path. -/

/-- Every argument of an import is there. -/
theorem exists_arguments {args : Arguments} (h : args.Provides importParameters) :
    (∃ file, args.filePath "file_path" = .ok file)
      ∧ (∃ geometry, args.dataPath "geometry_path" = .ok geometry)
      ∧ (∀ key ∈ ["vertex_attribute_matrix", "face_attribute_matrix", "face_normals"],
          ∃ name, args.text key = .ok name)
      ∧ (∃ scale, args.float "scale_factor" = .ok scale)
      ∧ ∃ applyScale, args.bool "apply_scale" = .ok applyScale := by
  -- An argument whose kind is that of its parameter is taken by the reader of that kind.
  have hread : ∀ (i : Fin importParameters.length) {α : Type} (take : ParameterValue → Option α),
      (∀ value : ParameterValue, value.kind = importParameters[i].kind → (take value).isSome) →
        ∃ x, args.read importParameters[i].kind take importParameters[i].key = .ok x :=
    fun i _ take htake => h.exists_read take (List.getElem_mem i.2) htake
  have htext : ∀ value : ParameterValue, value.kind = .text → value.text?.isSome := by
    intro value hkind
    cases value <;> first | rfl | cases hkind
  refine ⟨hread ⟨0, by decide⟩ ParameterValue.filePath? ?file,
    hread ⟨1, by decide⟩ ParameterValue.dataPath? ?geometry, fun key hkey => ?_,
    hread ⟨5, by decide⟩ ParameterValue.float? ?scale,
    hread ⟨6, by decide⟩ ParameterValue.bool? ?applyScale⟩
  case file | geometry | scale | applyScale =>
    intro value hkind
    cases value <;> first | rfl | cases hkind
  simp only [List.mem_cons, List.not_mem_nil, or_false] at hkey
  rcases hkey with rfl | rfl | rfl
  · exact hread ⟨2, by decide⟩ ParameterValue.text? htext
  · exact hread ⟨3, by decide⟩ ParameterValue.text? htext
  · exact hread ⟨4, by decide⟩ ParameterValue.text? htext

theorem regularly_pathOfName (above : DataPath) {key name : String} {args : Arguments}
    (h : args.text key = .ok name) :
    Regularly (fun path => above.join name = .ok path) (pathOfName above key args) := by
  rw [pathOfName, argument_eq_ok h]
  exact Regularly.mapError fun e => ⟨rfl, Findings.regular_ofError (by decide) _⟩

/-- **The options of an import**: with arguments for all parameters there are options, unless a
name is invalid or the matrices share one. Names that are not valid are reported with the errors
of paths. -/
theorem regularly_ofArguments {args : Arguments} (h : args.Provides importParameters) :
    Regularly (fun o => o.vertexMatrix.name ≠ o.faceMatrix.name) (ofArguments args) := by
  obtain ⟨⟨file, hfile⟩, ⟨geometry, hgeometry⟩, htexts, ⟨scale, hscale⟩, applyScale, happly⟩ :=
    exists_arguments h
  obtain ⟨vertexName, hvertexName⟩ := htexts "vertex_attribute_matrix" (by simp)
  obtain ⟨faceName, hfaceName⟩ := htexts "face_attribute_matrix" (by simp)
  obtain ⟨normalsName, hnormalsName⟩ := htexts "face_normals" (by simp)
  rw [ofArguments, argument_eq_ok hgeometry]
  refine (regularly_pathOfName geometry hvertexName).bind fun vertexMatrix hvertex => ?_
  refine (regularly_pathOfName geometry hfaceName).bind fun faceMatrix hface => ?_
  dsimp only
  split
  · exact ⟨rfl, Findings.regular_ofError (by decide) _⟩
  · rename_i hne
    refine (regularly_pathOfName faceMatrix hnormalsName).bind fun normals _ => ?_
    rw [argument_eq_ok hfile, argument_eq_ok hscale, argument_eq_ok happly]
    -- Both matrices lie beneath the geometry, so they differ in their names.
    intro hname
    refine hne (DataPath.ext ?_)
    have hvertex := DataPath.join_eq_ok_iff.1 hvertex
    have hface := DataPath.join_eq_ok_iff.1 hface
    have hvertexLast : vertexMatrix.name = vertexName := by simp [DataPath.name, hvertex]
    have hfaceLast : faceMatrix.name = faceName := by simp [DataPath.name, hface]
    rw [hvertex, hface, ← hvertexLast, ← hfaceLast, show vertexMatrix.name = faceMatrix.name from hname]

/-! ## What is brought in

The tree is built here once, around any geometry with normals for its faces. That it fits
comes down to counts that are compared in words, hence the bound on the size of files. -/

variable (o : ImportOptions)

theorem dvd_coordinates (normals : List Point) :
    (3 : UInt64).toNat ∣ (Elements.float32 (normals.flatMap Point.coordinates)).size :=
  ⟨normals.length, Payload.length_coordinates normals⟩

/-- The array of normals, three components for each. -/
def arrayOf (normals : List Point) : DataArray :=
  ⟨.float32 (normals.flatMap Point.coordinates), 3, by decide, dvd_coordinates normals⟩

theorem size_arrayOf (normals : List Point) : (arrayOf normals).size = 3 * normals.length :=
  Payload.length_coordinates normals

/-- There is one tuple for each normal. -/
theorem tupleCount_arrayOf (normals : List Point) :
    (arrayOf normals).tupleCount = normals.length := by
  rw [DataArray.tupleCount, size_arrayOf]
  simp [arrayOf]

theorem normalsArray_eq (normals : List Point) : normalsArray normals = .ok (arrayOf normals) := by
  rw [normalsArray, show Elements.float32 _ = (arrayOf normals).elements from rfl,
    show (3 : UInt64) = (arrayOf normals).components from rfl, DataArray.ofElements_elements]
  rfl

/-- **The tree that is brought in**: the geometry, the two matrices beneath it and the normals
beneath the one for the faces. It can always be built, for every geometry and every list of
normals: the options have made sure of the names. -/
theorem exists_subtree (geometry : Geometry) (normals : List Point) :
    ∃ subtree, o.subtree geometry normals = .ok subtree
      ∧ subtree.tree = .node
          (.geometry ((geometry.withVertexData o.vertexMatrix.name).withFaceData o.faceMatrix.name))
          (Keyed.insert o.faceMatrix.name
            (.node (.attributeMatrix ⟨geometry.faceCount.toUInt64⟩)
              [(o.normals.name, .node (.array (arrayOf normals)) [])])
            [(o.vertexMatrix.name, .node (.attributeMatrix ⟨geometry.vertexCount.toUInt64⟩) [])]) := by
  rw [subtree, normalsArray_eq]
  exact ⟨_, rfl, rfl⟩

variable {o} {geometry : Geometry} {normals : List Point} {subtree : Subtree}

/-- **What is brought in is valid and fits**, if the numbers of vertices and faces are words and
every face has its normal. The matrices fit because each is registered by name and has as many
tuples as there are vertices or faces. -/
theorem isPlain_of_subtree (hnames : o.vertexMatrix.name ≠ o.faceMatrix.name)
    (hvertices : geometry.vertexCount < UInt64.size) (hfaces : geometry.faceCount < UInt64.size)
    (hnormals : normals.length = geometry.faceCount) (h : o.subtree geometry normals = .ok subtree) :
    subtree.tree.Lawful ∧ subtree.tree.FitsWithin := by
  obtain ⟨_, hsubtree, htree⟩ := o.exists_subtree geometry normals
  obtain rfl := Except.ok.inj (h.symm.trans hsubtree)
  have hordered : Keyed.Ordered subtree.tree.children := by
    have hordered := subtree.ordered
    rw [htree] at hordered ⊢
    exact hordered.1
  have hword : ∀ {n : Nat}, n < UInt64.size → n.toUInt64.toNat = n := fun hn =>
    UInt64.toNat_ofNat_of_lt' hn
  have hfaceTree : (NamedTree.node (DataObject.attributeMatrix ⟨geometry.faceCount.toUInt64⟩)
      [(o.normals.name, .node (.array (arrayOf normals)) [])]).Lawful
      ∧ (NamedTree.node (DataObject.attributeMatrix ⟨geometry.faceCount.toUInt64⟩)
        [(o.normals.name, .node (.array (arrayOf normals)) [])]).FitsWithin := by
    refine ⟨⟨List.pairwise_singleton _ _, o.normals.validName, NamedTree.lawful_leaf _, trivial⟩, ?_⟩
    rw [NamedTree.fitsWithin_iff _ (by exact List.pairwise_singleton _ _)]
    intro entry hentry
    rw [List.mem_singleton.1 hentry]
    exact ⟨⟨_, rfl, by rw [tupleCount_arrayOf, hnormals, hword hfaces]⟩,
      NamedTree.fitsWithin_leaf _⟩
  -- Beneath the geometry are the two matrices, each under the name registered for it.
  suffices ∀ entry ∈ subtree.tree.children, ValidName entry.1 ∧ entry.2.Lawful
      ∧ Fits subtree.tree.label entry.1 entry.2.label ∧ entry.2.FitsWithin from
    ⟨NamedTree.lawful_iff.2 ⟨hordered, fun entry he => ⟨(this entry he).1, (this entry he).2.1⟩⟩,
      (NamedTree.fitsWithin_iff _ hordered).2 fun entry he => (this entry he).2.2⟩
  rw [htree]
  intro entry hentry
  rcases Keyed.mem_insert hentry with rfl | hentry
  · refine ⟨o.faceMatrix.validName, hfaceTree.1, fun expected hexpected => ?_, hfaceTree.2⟩
    refine ⟨_, rfl, ?_⟩
    simp only [Geometry.requiredTuples?, Geometry.withVertexData, Geometry.withFaceData,
      Option.some.injEq, hnames, if_false, if_true] at hexpected
    rw [hword hfaces, ← hexpected]
    rfl
  · rw [List.mem_singleton.1 hentry]
    refine ⟨o.vertexMatrix.validName, NamedTree.lawful_leaf _, fun expected hexpected => ?_,
      NamedTree.fitsWithin_leaf _⟩
    refine ⟨_, rfl, ?_⟩
    simp only [Geometry.requiredTuples?, Geometry.withVertexData, Geometry.withFaceData,
      if_true, Option.some.injEq] at hexpected
    rw [hword hvertices, ← hexpected]
    rfl

theorem label_of_subtree (h : o.subtree geometry normals = .ok subtree) : subtree.label
    = .geometry ((geometry.withVertexData o.vertexMatrix.name).withFaceData o.faceMatrix.name) := by
  obtain ⟨_, hsubtree, htree⟩ := o.exists_subtree geometry normals
  obtain rfl := Except.ok.inj (h.symm.trans hsubtree)
  rw [Subtree.label, htree]
  rfl

/-! ## The geometry of a mesh

A face may have a stored normal or get a computed one. Either way there is one for each
face, which is all that matters for what fits. -/

theorem length_settleNormals (stored : Option (List Point)) (computed : List Point) :
    (settleNormals stored computed).length = computed.length := by
  unfold settleNormals
  split
  · rfl
  · split <;> rename_i hlength
    · rw [List.length_zipWith, hlength, Nat.min_self]
    · rfl

/-- Notices about faces are warnings. -/
theorem faceNotices_regular (geometry : Geometry) :
    (faceNotices geometry).hasErrors = false ∧ (faceNotices geometry).Regular := by
  unfold faceNotices
  split
  · exact ⟨rfl, Findings.regular_none⟩
  · exact ⟨rfl, Findings.regular_ofWarning (by decide) _⟩

/-- **The geometry of a mesh** has its vertices and faces, and a normal for each face; or the mesh
is refused. It is refused if a face has a corner that is not a vertex, or if more than two faces
share an edge. -/
theorem regularly_build (o : ImportOptions) (mesh : Mesh) :
    Regularly (fun built => built.1.vertexCount = mesh.vertices.length
      ∧ built.1.faceCount = mesh.faces.length ∧ built.2.1.length = mesh.faces.length
      ∧ built.2.2.hasErrors = false ∧ built.2.2.Regular) (o.build mesh) := by
  rw [build]
  refine (Regularly.mapError fun e => ⟨rfl, Findings.regular_ofError (by decide) _⟩).bind
    fun geometry hgeometry => ?_
  refine (Regularly.mapError fun e => ⟨rfl, Findings.regular_ofError (by decide) _⟩).bind
    fun _ _ => ?_
  -- The geometry has the vertices and faces of the mesh; scaling moves its vertices and adds none.
  have hmesh : geometry.vertexCount = mesh.vertices.length
      ∧ geometry.faceCount = mesh.faces.length := by
    obtain ⟨hvertices, hfaces⟩ := Geometry.of_ofMesh_eq_ok hgeometry
    rw [Geometry.vertexCount, Geometry.faceCount, hvertices, hfaces]
    exact ⟨List.size_toArray, rfl⟩
  refine ⟨?_, ?_, ?_, faceNotices_regular geometry⟩
  · dsimp only
    split
    · rw [← hmesh.1]
      exact Array.size_map
    · exact hmesh.1
  · dsimp only
    split <;> exact hmesh.2
  · rw [length_settleNormals, Geometry.faceNormals, List.length_map]
    split <;> exact hmesh.2

/-! ## The edits

Two edits are asked for: the groups above the geometry, and the tree. Whether they are
accepted is decided on the way. -/

/-- **The edits are accepted** if the path of the geometry is free and the way to it can be
passed, the path included. One edit makes the groups above, if there are any, and then one brings
in the tree at the path. -/
theorem acceptedEach_iff {map : PathMap} (o : ImportOptions) {subtree : Subtree}
    (hplain : subtree.tree.Lawful ∧ subtree.tree.FitsWithin) {geometry : Geometry}
    (hlabel : subtree.label = .geometry geometry) :
    Edit.AcceptedEach map (o.edits subtree) ↔ map o.geometry = none ∧ map.Passable o.geometry := by
  cases hparent : o.geometry.parent? with
  | none =>
    have hedits : o.edits subtree = [.insert o.geometry subtree false] := by
      rw [edits, hparent]
      rfl
    have hpass : map o.geometry = none → map.Passable o.geometry := by
      rw [PathMap.passable_iff_of_parent?_none hparent]
      intro hfree
      refine (PathMap.ready_of_none hfree).2 fun above holder habove => ?_
      rw [hparent] at habove
      cases habove
    rw [hedits]
    simp [Edit.AcceptedEach, Edit.Accepted, hparent, hplain, and_iff_left_of_imp hpass]
  | some above =>
    have hedits : o.edits subtree = [.groups above, .insert o.geometry subtree false] := by
      rw [edits, hparent]
      rfl
    -- The groups leave the path of the geometry as it is, and a holder above it.
    have hgeometry : PathMap.addGroups above.prefixes map o.geometry = map o.geometry := by
      rw [PathMap.addGroups, if_neg, Option.or_none]
      rw [DataPath.mem_prefixes, ← DataPath.isDescendantOf_of_parent? hparent]
      simp [DataPath.isDescendantOf_iff]
    have habove : PathMap.addGroups above.prefixes map above = (map above).or (some .group) := by
      rw [PathMap.addGroups, if_pos (DataPath.mem_prefixes.2 above.startsWith_self)]
    have hinsert : (Edit.insert o.geometry subtree false).Accepted
        (PathMap.addGroups above.prefixes map) ↔ map o.geometry = none ∧ map.Ready o.geometry := by
      simp only [Edit.Accepted, hgeometry, hparent, Option.some.injEq, forall_eq', habove, hplain,
        hlabel, Bool.false_eq_true, or_false, and_true, fits_geometry_iff]
      refine and_congr_right fun hfree => ?_
      rw [PathMap.ready_of_none hfree]
      constructor
      · rintro ⟨holder, hholder, hfits⟩ above' holder' habove' hholder'
        obtain rfl := Option.some.inj (hparent.symm.trans habove')
        rw [hholder', Option.some_or] at hholder
        exact Option.some.inj hholder ▸ hfits
      · intro hready
        cases hholder : map above with
        | none => exact ⟨.group, rfl, trivial⟩
        | some holder => exact ⟨holder, rfl, hready above holder hparent hholder⟩
    rw [hedits, PathMap.passable_iff_of_parent? hparent, ← and_assoc, ← hinsert, and_comm]
    exact and_congr_right fun _ => and_iff_left trivial

/-! ## The plan and the work

Both read the options in the same way. The plan stops there; the work goes on to read the
file, and may find more that is wrong, but nothing that is a defect. -/

/-- What is noticed before the file is read are warnings. -/
theorem notices_regular (o : ImportOptions) :
    o.notices.hasErrors = false ∧ o.notices.Regular := by
  have hwarning : ∀ {code : DiagnosticCode} (message : String), code ≠ .internal →
      (Findings.ofWarning code message).hasErrors = false
        ∧ (Findings.ofWarning code message).Regular :=
    fun message h => ⟨rfl, Findings.regular_ofWarning h message⟩
  have hnone : Findings.none.hasErrors = false ∧ Findings.none.Regular := ⟨rfl, Findings.regular_none⟩
  have happend : ∀ {a b : Findings}, (a.hasErrors = false ∧ a.Regular) →
      (b.hasErrors = false ∧ b.Regular) → (a ++ b).hasErrors = false ∧ (a ++ b).Regular :=
    fun ha hb => ⟨by rw [Findings.hasErrors_append, ha.1, hb.1]; rfl,
      Findings.regular_append.2 ⟨ha.2, hb.2⟩⟩
  -- There are two notices at most, and both are warnings of their own.
  rw [notices]
  refine happend ?_ ?_
  · split
    · exact hnone
    · exact hwarning _ (by decide)
  · split
    · exact hwarning _ (by decide)
    · exact hnone

/-- **What is announced for a mesh**: its edits around an empty geometry, or an error that is no
defect. The file is not read for this: the plan only asks whether it is there. -/
theorem regularly_planImport {args : Arguments} {o : ImportOptions} (files : FileSystem)
    (ho : ofArguments args = .ok o) :
    Regularly (fun plan => ∃ subtree, o.subtree .empty [] = .ok subtree
      ∧ plan = ⟨o.notices, o.edits subtree⟩) (planImport files args) := by
  obtain ⟨subtree, hsubtree, -⟩ := o.exists_subtree .empty []
  rw [planImport, ho]
  refine (regularly_requireFile files o.file).bind fun _ _ => ?_
  rw [hsubtree]
  exact ⟨subtree, rfl, rfl⟩

theorem plan_eq (files : FileSystem) (s : Store) (args : Arguments) :
    importGeometry.plan files s args = match planImport files args with
      | .ok plan => plan
      | .error findings => .failed findings := rfl

/-- Without options there is no plan. -/
theorem plan_of_error {args : Arguments} {findings : Findings}
    (ho : ofArguments args = .error findings) (files : FileSystem) (s : Store) :
    importGeometry.plan files s args = .failed findings := by
  rw [plan_eq, planImport, ho]
  rfl

/-- The plan of an import: an error that is no defect, or its edits around an
empty geometry. -/
theorem plan_cases {args : Arguments} {o : ImportOptions} (ho : ofArguments args = .ok o)
    (files : FileSystem) (s : Store) :
    ((importGeometry.plan files s args).findings.hasErrors = true
        ∧ (importGeometry.plan files s args).findings.Regular)
      ∨ ∃ subtree, o.subtree .empty [] = .ok subtree
        ∧ importGeometry.plan files s args = ⟨o.notices, o.edits subtree⟩ := by
  have hregular := regularly_planImport files ho
  rw [plan_eq]
  cases hplanned : planImport files args with
  | error findings =>
    rw [hplanned] at hregular
    exact Or.inl hregular
  | ok plan =>
    rw [hplanned] at hregular
    obtain ⟨subtree, hsubtree, rfl⟩ := hregular
    exact Or.inr ⟨subtree, hsubtree, rfl⟩

/-- **A plan without errors** has options, and announces the edits around an empty geometry. In
particular the two matrices have different names, for which the options are checked. -/
theorem exists_announced {args : Arguments} (hargs : args.Provides importParameters)
    {files : FileSystem} {s : Store}
    (hfound : (importGeometry.plan files s args).findings.hasErrors = false) :
    ∃ o announced, ofArguments args = .ok o ∧ o.vertexMatrix.name ≠ o.faceMatrix.name
      ∧ o.subtree .empty [] = .ok announced
      ∧ (importGeometry.plan files s args).edits = o.edits announced := by
  have hoptions := regularly_ofArguments hargs
  cases ho : ofArguments args with
  | error findings =>
    rw [ho] at hoptions
    rw [plan_of_error ho] at hfound
    cases hoptions.1.symm.trans hfound
  | ok o =>
    rw [ho] at hoptions
    rcases plan_cases ho files s with herror | ⟨announced, hannounced, he⟩
    · cases herror.1.symm.trans hfound
    · exact ⟨o, announced, rfl, hoptions, hannounced, by rw [he]⟩

theorem regularly_readMesh (files : FileSystem) (o : ImportOptions) :
    Regularly (fun mesh => ∃ bytes, files.read o.file = .ok bytes
      ∧ ((MeshFormat.ofPath? o.file).getD .fallback).decode bytes = .ok mesh)
      (readMesh files o) := by
  rw [readMesh]
  refine (regularly_readInput files o.file).bind fun bytes hbytes => ?_
  exact (regularly_codec o.file _).mono fun mesh hmesh => ⟨bytes, hbytes, hmesh⟩

/-- **What the work on a mesh comes to**: an error that is no defect, or the edits for the
geometry that was built. Stopping the run counts as such an error. -/
theorem importMesh_cases (o : ImportOptions) (mesh : Mesh) (context : RunContext)
    (state : RunState) :
    ((importMesh o mesh context state).1.findings.hasErrors = true
        ∧ (importMesh o mesh context state).1.findings.Regular)
      ∨ ∃ built subtree, o.build mesh = .ok built ∧ o.subtree built.1 built.2.1 = .ok subtree
        ∧ (importMesh o mesh context state).1 = ⟨built.2.2, o.edits subtree⟩ := by
  rw [importMesh]
  simp only [Run.bind_apply, Run.ite_apply]
  split
  · exact Or.inl ⟨rfl, Findings.regular_ofError (by decide) _⟩
  · have hbuild := regularly_build o mesh
    cases hbuilt : o.build mesh with
    | error findings =>
      rw [hbuilt] at hbuild
      exact Or.inl hbuild
    | ok built =>
      obtain ⟨geometry, normals, notices⟩ := built
      -- Whatever was built, a subtree can be made of it.
      obtain ⟨subtree, hsubtree, -⟩ := o.exists_subtree geometry normals
      refine Or.inr ⟨_, subtree, rfl, hsubtree, ?_⟩
      dsimp only
      rw [hsubtree]
      rfl

theorem performImport_apply {args : Arguments} {o : ImportOptions} (ho : ofArguments args = .ok o)
    (context : RunContext) (state : RunState) :
    (performImport args context state).1 = match readMesh state.files o with
      | .ok mesh =>
        (importMesh o mesh context (Run.report importName s!"reading {o.file}" context state).2).1
      | .error findings => .failed findings := by
  rw [performImport, ho]
  simp only [Run.bind_apply, Run.files_apply]
  rw [show (Run.report importName s!"reading {o.file}" context state).2.files = state.files from rfl]
  cases readMesh state.files o <;> rfl

/-- **What an import comes to**: an error that is no defect, or the edits for the geometry of the
mesh in the file. Errors come from reading the file, from building the geometry, or from being
stopped. -/
theorem performImport_cases {args : Arguments} {o : ImportOptions} (ho : ofArguments args = .ok o)
    (context : RunContext) (state : RunState) :
    ((performImport args context state).1.findings.hasErrors = true
        ∧ (performImport args context state).1.findings.Regular)
      ∨ ∃ mesh built subtree, readMesh state.files o = .ok mesh ∧ o.build mesh = .ok built
        ∧ o.subtree built.1 built.2.1 = .ok subtree
        ∧ (performImport args context state).1 = ⟨built.2.2, o.edits subtree⟩ := by
  have hread := regularly_readMesh state.files o
  rw [performImport_apply ho]
  cases hmesh : readMesh state.files o with
  | error findings =>
    rw [hmesh] at hread
    exact Or.inl hread
  | ok mesh =>
    rcases importMesh_cases o mesh context (Run.report importName s!"reading {o.file}" context state).2
      with herror | ⟨built, subtree, hbuilt, hsubtree, he⟩
    · exact Or.inl herror
    · exact Or.inr ⟨mesh, built, subtree, rfl, hbuilt, hsubtree, he⟩

/-- A surface is built. -/
theorem exists_build (o : ImportOptions) {mesh : Mesh} (h : mesh.IsSurface) :
    ∃ built, o.build mesh = .ok built := by
  obtain ⟨geometry, hgeometry, hmanifold⟩ := h.exists_geometry
  rw [build, hgeometry]
  refine ⟨_, bind_eq_ok_iff.2 ⟨geometry, rfl, bind_eq_ok_iff.2 ⟨(), ?_, rfl⟩⟩⟩
  rw [hmanifold]
  rfl

/-- **The import of a surface**, if it is not told to stop, asks for its edits. It looks once
whether it is to stop, after it has read the file. -/
theorem performImport_of_isSurface {args : Arguments} {o : ImportOptions}
    (ho : ofArguments args = .ok o) (context : RunContext) (state : RunState) {mesh : Mesh}
    (hmesh : readMesh state.files o = .ok mesh) (hsurface : mesh.IsSurface)
    (hrunning : (Run.isStopped context
      (Run.report importName s!"reading {o.file}" context state).2).1 = false) :
    ∃ built subtree, o.build mesh = .ok built ∧ o.subtree built.1 built.2.1 = .ok subtree
      ∧ (performImport args context state).1 = ⟨built.2.2, o.edits subtree⟩ := by
  obtain ⟨⟨geometry, normals, notices⟩, hbuilt⟩ := o.exists_build hsurface
  obtain ⟨subtree, hsubtree, -⟩ := o.exists_subtree geometry normals
  refine ⟨_, subtree, hbuilt, hsubtree, ?_⟩
  rw [performImport_apply ho, hmesh]
  dsimp only
  rw [importMesh]
  simp only [Run.bind_apply, Run.ite_apply, hrunning, hbuilt, hsubtree]
  rfl

/-- The import reports no defect before its edits are made. -/
theorem regular_importGeometry : importGeometry.Regular where
  keys := by decide
  plan files s args hargs := by
    have hoptions := regularly_ofArguments hargs
    cases ho : ofArguments args with
    | error findings =>
      rw [ho] at hoptions
      rw [plan_of_error ho]
      exact hoptions.2
    | ok o =>
      -- A plan that is refused has an error of the reader; any other has the notices only.
      rcases plan_cases ho files s with herror | ⟨subtree, -, he⟩
      · exact herror.2
      · rw [he]
        exact o.notices_regular.2
  perform s args context state hargs := by
    show (performImport args context state).1.findings.Regular
    have hoptions := regularly_ofArguments hargs
    cases ho : ofArguments args with
    | error findings =>
      rw [ho] at hoptions
      rw [performImport, ho]
      exact hoptions.2
    | ok o =>
      rcases performImport_cases ho context state with herror | ⟨mesh, built, subtree, -, hbuilt, -, he⟩
      · exact herror.2
      · have hbuild := regularly_build o mesh
        rw [hbuilt] at hbuild
        rw [he]
        exact hbuild.2.2.2.2

/-- **The edits of an import are plain**, for files that have a size. The counts of the mesh are
bounded by the size of the file that it was read from. -/
theorem isPlain_of_build {files : FileSystem} (hfiles : files.IsSized) {o : ImportOptions}
    (hnames : o.vertexMatrix.name ≠ o.faceMatrix.name) {mesh : Mesh} {subtree : Subtree}
    {built : Geometry × List Point × Findings} (hmesh : readMesh files o = .ok mesh)
    (hbuilt : o.build mesh = .ok built) (hsubtree : o.subtree built.1 built.2.1 = .ok subtree) :
    subtree.tree.Lawful ∧ subtree.tree.FitsWithin := by
  have hread := regularly_readMesh files o
  rw [hmesh] at hread
  obtain ⟨bytes, hbytes, hdecode⟩ := hread
  obtain ⟨hvertices, hfaces⟩ := MeshFormat.size_le hdecode
  have hsize := hfiles.length_lt hbytes
  have hbuild := regularly_build o mesh
  rw [hbuilt] at hbuild
  obtain ⟨hvertexCount, hfaceCount, hnormals, -⟩ := hbuild
  exact isPlain_of_subtree hnames (by omega) (by omega) (by omega) hsubtree

end Filter.ImportOptions

end Meshwork
