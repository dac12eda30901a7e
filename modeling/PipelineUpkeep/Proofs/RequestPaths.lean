import PipelineUpkeep.Proofs.SegmentReading
/-!
# Paths of requests

Below the interface of a server a branch has five segments: two of them are written for the
project and the branch, from which their names are read back, and the others are fixed.  So the
path says which project and which branch is meant, as long as both names are segments.  A name
of one or two dots is none: its segment is missing, and the paths for these two names are the
same.  That is the only case in which names are mixed up.
-/

namespace PipelineUpkeep

open Text

/-! ## Names -/

/-- The text that a segment stands for, if its bytes are one. -/
def readSegment? (segment : List Char) : Option String :=
  String.fromUTF8? (percentDecode segment).toByteArray

theorem readSegment?_writtenSegment (text : String) :
    readSegment? (writtenSegment text) = some text := by
  have hBytes : (percentDecode (writtenSegment text)).toByteArray = text.toByteArray := by
    rw [percentDecode_writtenSegment, ← List.utf8Encode, ← String.toByteArray_ofList,
      String.ofList_toList]
  rw [readSegment?, hBytes, String.fromUTF8?, dif_pos text.isValidUTF8]
  rfl

theorem upperHexDigit_ne {c : Char} (h : hexValue? c = none) {n : Nat} (hDigit : n < 16) :
    c ≠ upperHexDigit n := by
  rintro rfl
  rw [hexValue?_upperHexDigit hDigit] at h
  cases h

theorem not_mem_percentChar {c : Char} (h : hexValue? c = none) (hPercent : c ≠ '%')
    (written : Char) : c ∉ percentChar written := by
  intro hMem
  obtain ⟨byte, -, hByte⟩ := List.mem_flatMap.mp hMem
  simp only [percentByte, upperHexDigits, List.nil_append, List.singleton_append, List.mem_cons,
    List.not_mem_nil, or_false] at hByte
  rcases hByte with hSign | hHigh | hLow
  · exact hPercent hSign
  · exact upperHexDigit_ne h (Nat.mod_lt _ (by decide)) hHigh
  · exact upperHexDigit_ne h (Nat.mod_lt _ (by decide)) hLow

/-- A written segment ends where the next slash stands. -/
theorem slash_not_mem_writtenSegment (text : String) : '/' ∉ writtenSegment text := by
  intro hMem
  obtain ⟨c, -, hC⟩ := List.mem_flatMap.mp hMem
  split at hC
  · exact not_mem_percentChar (by decide) (by decide) c hC
  · rename_i hPlain
    rw [← List.mem_singleton.mp hC] at hPlain
    exact hPlain (by decide)

/-- One or two dots. -/
def IsDots (text : String) : Prop :=
  text = "." ∨ text = ".."

/-- No tab and no line break. -/
def HasNoBreak (text : String) : Prop :=
  ∀ c ∈ text.toList, isTabOrBreak c = false

instance (text : String) : Decidable (IsDots text) := by
  unfold IsDots
  infer_instance

/-- The segments that stand for a name: one, but none for dots. -/
def nameSegments (text : String) : List (List Char) :=
  if IsDots text then [] else [writtenSegment text]

theorem pushSegment_eq_nameSegments {text : String} (h : HasNoBreak text)
    (path : List (List Char)) : pushSegment path text = path ++ nameSegments text := by
  unfold nameSegments
  split
  · rename_i hDots
    exact (if_pos hDots).trans (List.append_nil path).symm
  · rename_i hOther
    exact pushSegment_eq ⟨fun hOne => hOther (.inl hOne), fun hTwo => hOther (.inr hTwo), h⟩ path

/-- Names that are written alike: equal ones, and any dots. -/
def WrittenAlike (a b : String) : Prop :=
  a = b ∨ (IsDots a ∧ IsDots b)

theorem nameSegments_inj {a b : String} :
    nameSegments a = nameSegments b ↔ WrittenAlike a b := by
  unfold nameSegments WrittenAlike
  by_cases hA : IsDots a <;> by_cases hB : IsDots b
  · simp [hA, hB]
  · simp only [hA, hB, if_true, if_false, and_false, or_false]
    exact iff_of_false (List.cons_ne_nil _ _).symm fun hSame => hB (hSame ▸ hA)
  · simp only [hA, hB, if_true, if_false, and_true, or_false]
    exact iff_of_false (List.cons_ne_nil _ _) fun hSame => hA (hSame ▸ hB)
  · simp [hA, hB, writtenSegment_inj]

/-! ## Addresses -/

/-- The segments of a branch below the interface of a server. -/
def branchSegments (projectPath branch : String) : List (List Char) :=
  "projects".toList ::
    (nameSegments projectPath ++ "repository".toList :: "branches".toList :: nameSegments branch)

theorem branchSegments_ne_nil (projectPath branch : String) :
    branchSegments projectPath branch ≠ [] := List.cons_ne_nil _ _

theorem slash_not_mem_nameSegments {text : String} {segment : List Char}
    (h : segment ∈ nameSegments text) : '/' ∉ segment := by
  unfold nameSegments at h
  split at h
  · cases h
  · rw [List.mem_singleton.mp h]
    exact slash_not_mem_writtenSegment text

theorem slash_not_mem_branchSegments {projectPath branch : String} {segment : List Char}
    (h : segment ∈ branchSegments projectPath branch) : '/' ∉ segment := by
  simp only [branchSegments, List.mem_cons, List.mem_append] at h
  rcases h with rfl | hProject | rfl | rfl | hBranch
  · decide
  · exact slash_not_mem_nameSegments hProject
  · decide
  · decide
  · exact slash_not_mem_nameSegments hBranch

/-- The fixed segments keep the two names apart, whether or not they have segments. -/
theorem branchSegments_inj {a b a' b' : String} :
    branchSegments a b = branchSegments a' b' ↔ WrittenAlike a a' ∧ WrittenAlike b b' := by
  have hFixed : "repository".toList ≠ "branches".toList := by decide
  rw [← nameSegments_inj, ← nameSegments_inj]
  refine ⟨fun h => ?_, fun h => by rw [branchSegments, branchSegments, h.1, h.2]⟩
  have hRest := (List.cons.inj h).2
  unfold nameSegments at hRest ⊢
  -- With a segment for one project only, the fixed segments come to stand side by side.
  by_cases hA : IsDots a <;> by_cases hA' : IsDots a' <;>
    simp_all

namespace WebAddress

/-- The address of a path under this one. -/
def extendedBy (address : WebAddress) (segments : List (List Char)) : WebAddress :=
  { address with path := address.path ++ segments }

theorem extendedBy_inj {address : WebAddress} {segments others : List (List Char)} :
    address.extendedBy segments = address.extendedBy others ↔ segments = others := by
  refine ⟨fun h => ?_, congrArg _⟩
  exact List.append_cancel_left (congrArg WebAddress.path h)

theorem intercalate_append {separator : List Char} {front back : List (List Char)}
    (hFront : front ≠ []) (hBack : back ≠ []) :
    separator.intercalate (front ++ back) =
      separator.intercalate front ++ (separator ++ separator.intercalate back) := by
  induction front with
  | nil => exact absurd rfl hFront
  | cons piece rest ih =>
      cases rest with
      | nil => simp [List.intercalate_cons_of_ne_nil hBack]
      | cons next more =>
          have hRest := ih (List.cons_ne_nil next more)
          rw [List.cons_append] at hRest
          simp [List.intercalate_cons_cons, hRest]

/-- Segments without slashes are told apart by the text of the path. -/
theorem pathText_extendedBy_inj {address : WebAddress} (hPath : address.path ≠ [])
    {segments others : List (List Char)} (hSome : segments ≠ []) (hOthersSome : others ≠ [])
    (hSegments : ∀ segment ∈ segments, '/' ∉ segment)
    (hOthers : ∀ segment ∈ others, '/' ∉ segment) :
    (address.extendedBy segments).pathText = (address.extendedBy others).pathText ↔
      segments = others := by
  refine ⟨fun h => ?_, fun h => h ▸ rfl⟩
  have hText := (List.cons.inj (String.ofList_injective h)).2
  simp only [extendedBy, intercalate_append hPath hSome, intercalate_append hPath hOthersSome]
    at hText
  have hJoined := List.append_cancel_left (List.append_cancel_left hText)
  rw [← List.splitOn_intercalate '/' hSegments hSome, hJoined,
    List.splitOn_intercalate '/' hOthers hOthersSome]

end WebAddress

namespace BranchServer

/-- Names without tabs and line breaks are written one behind the other. -/
theorem branchAddress_eq_extendedBy (server : BranchServer) {projectPath branch : String}
    (hProject : HasNoBreak projectPath) (hBranch : HasNoBreak branch) :
    server.branchAddress projectPath branch =
      server.address.extendedBy (branchSegments projectPath branch) := by
  have hFixed (text : String) (hText : text ∈ ["projects", "repository", "branches"]) :
      HasNoBreak text ∧ nameSegments text = [text.toList] := by
    simp only [List.mem_cons, List.not_mem_nil, or_false] at hText
    rcases hText with rfl | rfl | rfl <;> exact ⟨by simp [HasNoBreak, isTabOrBreak], by decide⟩
  have hProjects := hFixed "projects" (by simp)
  have hRepository := hFixed "repository" (by simp)
  have hBranches := hFixed "branches" (by simp)
  simp only [branchAddress, WebAddress.extendedBy, List.foldl_cons, List.foldl_nil,
    pushSegment_eq_nameSegments hProjects.1, pushSegment_eq_nameSegments hProject,
    pushSegment_eq_nameSegments hRepository.1, pushSegment_eq_nameSegments hBranches.1,
    pushSegment_eq_nameSegments hBranch, hProjects.2, hRepository.2, hBranches.2]
  simp [branchSegments]

end BranchServer

/-- The segments of names that are segments are those of the two names between fixed ones. -/
theorem branchSegments_of_isSegmentText {projectPath branch : String}
    (hProject : IsSegmentText projectPath) (hBranch : IsSegmentText branch) :
    branchSegments projectPath branch =
      ["projects".toList, writtenSegment projectPath, "repository".toList, "branches".toList,
        writtenSegment branch] := by
  have hOther {text : String} (h : IsSegmentText text) : ¬IsDots text :=
    not_or.mpr ⟨h.notSingleDot, h.notDoubleDot⟩
  simp [branchSegments, nameSegments, hOther hProject, hOther hBranch]

/-- The address of a branch is that of the interface with five segments more, of which the
second is read back as the project and the fifth as the branch; names of dots have no segment.
Two addresses, or the texts of their paths, are the same only if the names are, dots apart. -/
theorem branch_addresses_are_unambiguous {baseUrl : String} {token : Option Token}
    {address : WebAddress} {server : BranchServer} (hBase : WebAddress.ofText baseUrl = .ok address)
    (hServer : BranchServer.ofText baseUrl token = .ok server) :
    (∀ projectPath branch, IsSegmentText projectPath → IsSegmentText branch →
      ∃ second fifth, server.branchAddress projectPath branch =
          (address.below ["api", "v4"]).extendedBy
            ["projects".toList, second, "repository".toList, "branches".toList, fifth] ∧
        '/' ∉ second ∧ '/' ∉ fifth ∧
        readSegment? second = some projectPath ∧ readSegment? fifth = some branch) ∧
    ∀ projectPath branch otherPath other, HasNoBreak projectPath → HasNoBreak branch →
      HasNoBreak otherPath → HasNoBreak other →
      (server.branchAddress projectPath branch = server.branchAddress otherPath other ↔
        WrittenAlike projectPath otherPath ∧ WrittenAlike branch other) ∧
      ((server.branchAddress projectPath branch).pathText =
          (server.branchAddress otherPath other).pathText ↔
        WrittenAlike projectPath otherPath ∧ WrittenAlike branch other) := by
  obtain rfl : (⟨address.below ["api", "v4"], token⟩ : BranchServer) = server := by
    rw [BranchServer.ofText, hBase] at hServer
    exact Except.ok.inj hServer
  have hPath : (address.below ["api", "v4"]).path ≠ [] := by simp [WebAddress.below]
  refine ⟨fun projectPath branch hProject hBranch => ?_, ?_⟩
  · refine ⟨writtenSegment projectPath, writtenSegment branch, ?_,
      slash_not_mem_writtenSegment _, slash_not_mem_writtenSegment _,
      readSegment?_writtenSegment _, readSegment?_writtenSegment _⟩
    rw [BranchServer.branchAddress_eq_extendedBy _ hProject.noTabOrBreak hBranch.noTabOrBreak,
      branchSegments_of_isSegmentText hProject hBranch]
  · intro projectPath branch otherPath other hProject hBranch hOtherPath hOther
    rw [BranchServer.branchAddress_eq_extendedBy _ hProject hBranch,
      BranchServer.branchAddress_eq_extendedBy _ hOtherPath hOther]
    have hText := WebAddress.pathText_extendedBy_inj hPath
      (branchSegments_ne_nil projectPath branch) (branchSegments_ne_nil otherPath other)
      (fun _ => slash_not_mem_branchSegments) fun _ => slash_not_mem_branchSegments
    exact ⟨WebAddress.extendedBy_inj.trans branchSegments_inj, hText.trans branchSegments_inj⟩

/-- A server below a path. -/
def nestedAddress : WebAddress :=
  ⟨"https", "host.example", none, ["gitlab".toList, []]⟩

/-- A project path and a branch with a slash each are one segment each, and no other two names
have the same path. -/
theorem branch_addresses_are_unambiguous_nested :
    let server : BranchServer := ⟨nestedAddress.below ["api", "v4"], none⟩
    WebAddress.ofText "https://host.example/gitlab/" = .ok nestedAddress ∧
      BranchServer.ofText "https://host.example/gitlab/" none = .ok server ∧
      IsSegmentText "group/project" ∧ IsSegmentText "feature/login" ∧
      (∃ second fifth, server.branchAddress "group/project" "feature/login" =
          (nestedAddress.below ["api", "v4"]).extendedBy
            ["projects".toList, second, "repository".toList, "branches".toList, fifth] ∧
        readSegment? second = some "group/project" ∧ readSegment? fifth = some "feature/login") ∧
      server.branchAddress "group/project" "feature/login" ≠
        server.branchAddress "group/project/feature" "login" := by
  intro server
  have hBase : WebAddress.ofText "https://host.example/gitlab/" = .ok nestedAddress := by
    decide +kernel
  have hServer : BranchServer.ofText "https://host.example/gitlab/" none = .ok server := by
    rw [BranchServer.ofText, hBase]
  have hNoBreak {text : String} (hText : text ∈ ["group/project", "feature/login",
      "group/project/feature", "login"]) : HasNoBreak text := by
    simp only [List.mem_cons, List.not_mem_nil, or_false] at hText
    rcases hText with rfl | rfl | rfl | rfl <;> simp [HasNoBreak, isTabOrBreak]
  have hProject : IsSegmentText "group/project" := ⟨by decide, by decide, hNoBreak (by simp)⟩
  have hBranch : IsSegmentText "feature/login" := ⟨by decide, by decide, hNoBreak (by simp)⟩
  obtain ⟨hSegments, hApart⟩ := branch_addresses_are_unambiguous hBase hServer
  obtain ⟨second, fifth, hAddress, -, -, hSecond, hFifth⟩ := hSegments _ _ hProject hBranch
  refine ⟨hBase, hServer, hProject, hBranch, ⟨second, fifth, hAddress, hSecond, hFifth⟩, ?_⟩
  intro hSame
  have hAlike := (hApart "group/project" "feature/login" "group/project/feature" "login"
    (hNoBreak (by simp)) (hNoBreak (by simp)) (hNoBreak (by simp)) (hNoBreak (by simp))).1.mp hSame
  exact absurd hAlike.1 (by unfold WrittenAlike; decide)

/-- The branches of one dot and of two dots have the same address, which has four segments more
than the one of the interface. -/
theorem dots_share_an_address :
    let server : BranchServer := ⟨nestedAddress.below ["api", "v4"], none⟩
    BranchServer.ofText "https://host.example/gitlab/" none = .ok server ∧
      HasNoBreak "group/project" ∧ HasNoBreak "." ∧ HasNoBreak ".." ∧ "." ≠ ".." ∧
      server.branchAddress "group/project" "." = server.branchAddress "group/project" ".." ∧
      (server.branchAddress "group/project" ".").pathText =
        "/gitlab/api/v4/projects/group%2Fproject/repository/branches" ∧
      ¬∃ second fifth, server.branchAddress "group/project" "." =
        (nestedAddress.below ["api", "v4"]).extendedBy
          ["projects".toList, second, "repository".toList, "branches".toList, fifth] := by
  have hBase : WebAddress.ofText "https://host.example/gitlab/" = .ok nestedAddress := by
    decide +kernel
  refine ⟨by rw [BranchServer.ofText, hBase], by simp [HasNoBreak, isTabOrBreak],
    by simp [HasNoBreak, isTabOrBreak], by simp [HasNoBreak, isTabOrBreak], by decide,
    by decide +kernel, by decide +kernel, ?_⟩
  rintro ⟨second, fifth, hAddress⟩
  have hPath : (BranchServer.mk (nestedAddress.below ["api", "v4"]) none).branchAddress
      "group/project" "." = (nestedAddress.below ["api", "v4"]).extendedBy
        ["projects".toList, "group%2Fproject".toList, "repository".toList,
          "branches".toList] := by
    decide +kernel
  rw [hPath, WebAddress.extendedBy_inj] at hAddress
  exact absurd (congrArg List.length hAddress) (by simp)

end PipelineUpkeep
