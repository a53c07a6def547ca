import ApiDocs.Proofs.Extract.DeclaredTypes
import ApiDocs.Proofs.Reference.Location

/-!
# Where the documentation shows locations

A module shows the location of each of its declarations, of their members, and of the members of the
object types that occur in them.  Records are put together from several declarations, and parts of
them are replaced; still **every location that a module shows is one of a declaration that is filed
in it**, and belongs there to the same thing.

## Main definitions

* `Subject`, `Site` — what a location belongs to, and the location with it.
* `DocModule.sites` — the locations of the declarations of a module and of their members.
* `DocModule.Shows` — all locations of a module, those in types included.
* `Declaration.sites`, `Declaration.Shows` — the same for one declaration.

## Main statements

* `shows_ofDeclarations` — what a module shows, one of its declarations shows.

## Design notes

**A method is called by its key**, since a method may be added to the entry of an accessor.
-/

namespace ApiDocs

open Typed (types)

/-! ## Sites -/

/-- What a location belongs to.  Members are named together with the declaration they belong to;
the members of object types inside other types have just a name. -/
inductive Subject where
  | declaration (kind : DeclarationKind) (name : String)
  | classProperty (owner name : String)
  | classMethod (owner key : String)
  | interfaceMember (owner name : String)
  | enumMember (owner name : String)
  | objectMember (name : String)
deriving DecidableEq

/-- Whether all declarations of a subject are shown.  A class or type alias that is declared again
replaces the earlier one, with its members. -/
def Subject.lasts : Subject → Bool
  | declaration .classType _ => false
  | declaration .typeAlias _ => false
  | declaration _ _ => true
  | interfaceMember _ _ => true
  | enumMember _ _ => true
  | _ => false

/-- A location that is shown, with what it belongs to. -/
structure Site where
  subject : Subject
  location : Location
deriving DecidableEq

/-- The site of a member that is no index signature. -/
def Member.site? (subject : String → Subject) : Member Ty → Option Site
  | .property signature => some ⟨subject signature.name, signature.location⟩
  | .index _ => none

/-- The sites of the members of a class. -/
def ClassBody.sites (owner : String) (body : ClassBody) : List Site :=
  body.properties.map (fun property => ⟨.classProperty owner property.name, property.location⟩) ++
    body.methods.entries.flatMap fun (key, method) =>
      method.signatures.map fun signature => ⟨.classMethod owner key, signature.location⟩

def ClassRecord.sites (record : ClassRecord) : List Site :=
  ⟨.declaration .classType record.name, record.location⟩ :: record.body.sites record.name

def InterfaceRecord.sites (record : InterfaceRecord) : List Site :=
  record.locations.map (⟨.declaration .interface record.name, ·⟩) ++
    record.members.filterMap (Member.site? (.interfaceMember record.name))

def EnumMember.site (owner : String) (member : EnumMember) : Site :=
  ⟨.enumMember owner member.name, member.location⟩

def EnumRecord.sites (record : EnumRecord) : List Site :=
  record.locations.map (⟨.declaration .enumType record.name, ·⟩) ++
    record.members.map (EnumMember.site record.name)

def AliasRecord.site (record : AliasRecord) : Site :=
  ⟨.declaration .typeAlias record.name, record.location⟩

/-- The sites of a function: its own, and those of its signatures. -/
def FunctionRecord.sites (record : FunctionRecord) : List Site :=
  ⟨.declaration .function record.name, record.location⟩ ::
    record.signatures.map fun signature =>
      ⟨.declaration .function record.name, signature.location⟩

def ConstantRecord.site (record : ConstantRecord) : Site :=
  ⟨.declaration .constant record.name, record.location⟩

/-- The sites of the declarations of a module and of their members. -/
def DocModule.sites (module : DocModule) : List Site :=
  module.classes.values.flatMap ClassRecord.sites ++
    module.interfaces.values.flatMap InterfaceRecord.sites ++
    module.enums.values.flatMap EnumRecord.sites ++
    module.aliases.values.map AliasRecord.site ++
    module.functions.values.flatMap FunctionRecord.sites ++
    module.constants.map ConstantRecord.site

/-- A site is shown in a type, by a member of an object type at any depth. -/
def Ty.Shows (type : Ty) (site : Site) : Prop :=
  ∃ members, type.Contains (.object members) ∧
    site ∈ members.filterMap (Member.site? .objectMember)

/-- A module shows a site: with its declarations and their members, or in a type. -/
def DocModule.Shows (module : DocModule) (site : Site) : Prop :=
  site ∈ module.sites ∨ ∃ type ∈ types module, type.Shows site

namespace Declaration

/-- The sites of a declaration and of its members. -/
def sites : Declaration → List Site
  | classDecl record => record.sites
  | interfaceDecl own =>
    ⟨.declaration .interface own.name, own.location⟩ ::
      own.members.filterMap (Member.site? (.interfaceMember own.name))
  | enumDecl own =>
    ⟨.declaration .enumType own.name, own.location⟩ :: own.members.map (EnumMember.site own.name)
  | aliasDecl record => [record.site]
  | functionDecl own => [⟨.declaration .function own.name, own.signature.location⟩]
  | constants records => records.map ConstantRecord.site

/-- A declaration shows a site: its own, one of a member, or one in a type. -/
def Shows (declaration : Declaration) (site : Site) : Prop :=
  site ∈ declaration.sites ∨ ∃ type ∈ types declaration, type.Shows site

end Declaration

namespace DocModule

variable {declarations : List Declaration}

/-! ## What a module shows -/

theorem sites_ofDeclarations {site : Site} (member : site ∈ (ofDeclarations declarations).sites) :
    ∃ declaration ∈ declarations, site ∈ declaration.sites := by
  simp only [sites, List.mem_append, List.mem_flatMap, List.mem_map] at member
  rcases member with ((((⟨record, isRecord, inside⟩ | ⟨record, isRecord, inside⟩) |
    ⟨record, isRecord, inside⟩) | ⟨record, isRecord, rfl⟩) | ⟨record, isRecord, inside⟩) |
    ⟨record, isRecord, rfl⟩
  · exact ⟨_, mem_classes_ofDeclarations isRecord, inside⟩
  · obtain ⟨name, own, rfl, declared⟩ := mem_interfaces_ofDeclarations isRecord
    simp only [InterfaceRecord.sites, InterfaceRecord.ofDeclarations, List.mem_append,
      List.mem_map, List.mem_filterMap, List.mem_flatMap] at inside
    rcases inside with ⟨_, ⟨one, among, rfl⟩, rfl⟩ | ⟨member, ⟨one, among, isMember⟩, isSite⟩
    · obtain ⟨inside, rfl⟩ := declared one among
      exact ⟨_, inside, List.mem_cons_self⟩
    · obtain ⟨inside, rfl⟩ := declared one among
      exact ⟨_, inside, List.mem_cons_of_mem _ (List.mem_filterMap.2 ⟨member, isMember, isSite⟩)⟩
  · obtain ⟨name, own, rfl, declared⟩ := mem_enums_ofDeclarations isRecord
    simp only [EnumRecord.sites, EnumRecord.ofDeclarations, List.mem_append, List.mem_map,
      List.mem_flatMap] at inside
    rcases inside with ⟨_, ⟨one, among, rfl⟩, rfl⟩ | ⟨member, ⟨one, among, isMember⟩, rfl⟩
    · obtain ⟨inside, rfl⟩ := declared one among
      exact ⟨_, inside, List.mem_cons_self⟩
    · obtain ⟨inside, rfl⟩ := declared one among
      exact ⟨_, inside, List.mem_cons_of_mem _ (List.mem_map_of_mem isMember)⟩
  · exact ⟨_, mem_aliases_ofDeclarations isRecord, List.mem_singleton_self _⟩
  · obtain ⟨own, declared, signatures, first, isFirst, location, -⟩ :=
      mem_functions_ofDeclarations isRecord
    rw [FunctionRecord.sites, signatures, location, List.map_map, List.mem_cons,
      List.mem_map] at inside
    rcases inside with rfl | ⟨one, among, rfl⟩
    · obtain ⟨inside, sameName⟩ := declared first isFirst
      exact ⟨_, inside, by simp [Declaration.sites, sameName]⟩
    · obtain ⟨inside, sameName⟩ := declared one among
      exact ⟨_, inside, by simp [Declaration.sites, sameName]⟩
  · obtain ⟨records, inside, isConstant⟩ := mem_constants_ofDeclarations isRecord
    exact ⟨_, inside, List.mem_map_of_mem isConstant⟩

/-- The sites of a declaration that last are sites of its module. -/
theorem mem_sites_ofDeclarations {declaration : Declaration} (member : declaration ∈ declarations)
    {site : Site} (listed : site ∈ declaration.sites) (lasts : site.subject.lasts = true) :
    site ∈ (ofDeclarations declarations).sites := by
  simp only [sites, List.mem_append, List.mem_flatMap, List.mem_map]
  cases declaration with
  | classDecl record =>
      rcases List.mem_cons.1 listed with rfl | inBody
      · cases lasts
      · rcases List.mem_append.1 inBody with inProperties | inMethods
        · obtain ⟨property, -, rfl⟩ := List.mem_map.1 inProperties
          cases lasts
        · obtain ⟨⟨key, entry⟩, -, inEntry⟩ := List.mem_flatMap.1 inMethods
          obtain ⟨signature, -, rfl⟩ := List.mem_map.1 inEntry
          cases lasts
  | interfaceDecl own =>
      have among := mem_filter_of_mem Declaration.interface? (·.name) member rfl
      have found := find?_interfaces_ofDeclarations declarations own.name
      rw [if_neg (List.ne_nil_of_mem among)] at found
      refine .inl (.inl (.inl (.inl (.inr ⟨_, Table.mem_values_of_find? found, ?_⟩))))
      rcases List.mem_cons.1 listed with rfl | inMembers
      · exact List.mem_append_left _ (List.mem_map_of_mem (List.mem_map_of_mem among))
      · obtain ⟨one, isOne, isSite⟩ := List.mem_filterMap.1 inMembers
        exact List.mem_append_right _ (List.mem_filterMap.2
          ⟨one, List.mem_flatMap.2 ⟨own, among, isOne⟩, isSite⟩)
  | enumDecl own =>
      have among := mem_filter_of_mem Declaration.enum? (·.name) member rfl
      have found := find?_enums_ofDeclarations declarations own.name
      rw [if_neg (List.ne_nil_of_mem among)] at found
      refine .inl (.inl (.inl (.inr ⟨_, Table.mem_values_of_find? found, ?_⟩)))
      rcases List.mem_cons.1 listed with rfl | inMembers
      · exact List.mem_append_left _ (List.mem_map_of_mem (List.mem_map_of_mem among))
      · obtain ⟨one, isOne, rfl⟩ := List.mem_map.1 inMembers
        exact List.mem_append_right _
          (List.mem_map_of_mem (List.mem_flatMap.2 ⟨own, among, isOne⟩))
  | aliasDecl record =>
      obtain rfl := List.mem_singleton.1 listed
      cases lasts
  | functionDecl own =>
      obtain rfl := List.mem_singleton.1 listed
      have among := mem_filter_of_mem Declaration.function? (·.name) member rfl
      obtain ⟨first, isFirst⟩ := Option.ne_none_iff_exists'.1
        (mt List.head?_eq_none_iff.1 (List.ne_nil_of_mem among))
      have found := find?_functions_ofDeclarations declarations own.name
      rw [isFirst] at found
      refine .inl (.inr ⟨_, Table.mem_values_of_find? found, ?_⟩)
      exact List.mem_cons_of_mem _ (List.mem_map_of_mem (List.mem_map_of_mem among))
  | constants records =>
      obtain ⟨record, isRecord, rfl⟩ := List.mem_map.1 listed
      have shown : records ⊆ (ofDeclarations declarations).constants :=
        documents_ofDeclarations member
      exact .inr ⟨record, shown isRecord, rfl⟩

/-- Among the declarations of a name there is a last one. -/
theorem exists_last_of_mem {δ : Type} (select : Declaration → Option δ) (key : δ → String)
    {declaration : Declaration} {own : δ} (member : declaration ∈ declarations)
    (selected : select declaration = some own) :
    ∃ last, ((declarations.filterMap select).filter (key · = key own)).getLast? = some last ∧
      key last = key own := by
  have among := mem_filter_of_mem select key member selected
  obtain ⟨last, isLast⟩ := Option.ne_none_iff_exists'.1
    (mt List.getLast?_eq_none_iff.1 (List.ne_nil_of_mem among))
  obtain ⟨-, isName⟩ := List.mem_filter.1 (List.mem_of_getLast? isLast)
  exact ⟨last, isLast, of_decide_eq_true isName⟩

/-- Whatever is declared has a site in its module, be it that of another declaration. -/
theorem exists_site_ofDeclarations {declaration : Declaration}
    (member : declaration ∈ declarations) {kind : DeclarationKind} {name : String}
    {location : Location} (listed : ⟨.declaration kind name, location⟩ ∈ declaration.sites) :
    ∃ location, ⟨.declaration kind name, location⟩ ∈ (ofDeclarations declarations).sites := by
  by_cases lasts : (Subject.declaration kind name).lasts = true
  · exact ⟨location, mem_sites_ofDeclarations member listed lasts⟩
  simp only [sites, List.mem_append, List.mem_flatMap, List.mem_map]
  -- The last class or type alias of the name takes the place of the others.
  cases declaration with
  | classDecl record =>
      rcases List.mem_cons.1 listed with same | inBody
      · cases same
        obtain ⟨last, isLast, isName⟩ := exists_last_of_mem Declaration.class? (·.name) member rfl
        have found := find?_classes_ofDeclarations declarations record.name
        rw [isLast] at found
        refine ⟨last.location, .inl (.inl (.inl (.inl (.inl
          ⟨last, Table.mem_values_of_find? found, ?_⟩))))⟩
        rw [← isName]
        exact List.mem_cons_self
      · simp [ClassBody.sites] at inBody
  | aliasDecl record =>
      cases List.mem_singleton.1 listed
      obtain ⟨last, isLast, isName⟩ := exists_last_of_mem Declaration.alias? (·.name) member rfl
      have found := find?_aliases_ofDeclarations declarations record.name
      rw [isLast] at found
      refine ⟨last.location, .inl (.inl (.inr ⟨last, Table.mem_values_of_find? found, ?_⟩))⟩
      rw [← isName]
      rfl
  | interfaceDecl own =>
      rcases List.mem_cons.1 listed with same | inMembers
      · cases same
        exact absurd rfl lasts
      · obtain ⟨one, -, isSite⟩ := List.mem_filterMap.1 inMembers
        cases one <;> cases isSite
  | enumDecl own =>
      rcases List.mem_cons.1 listed with same | inMembers
      · cases same
        exact absurd rfl lasts
      · simp [EnumMember.site] at inMembers
  | functionDecl own =>
      cases List.mem_singleton.1 listed
      exact absurd rfl lasts
  | constants records =>
      obtain ⟨record, -, same⟩ := List.mem_map.1 listed
      cases same
      exact absurd rfl lasts

/-- **What a module shows, one of its declarations shows.** -/
theorem shows_ofDeclarations {site : Site} (shown : (ofDeclarations declarations).Shows site) :
    ∃ declaration ∈ declarations, declaration.Shows site := by
  rcases shown with own | ⟨type, inTypes, inType⟩
  · obtain ⟨declaration, member, inside⟩ := sites_ofDeclarations own
    exact ⟨declaration, member, .inl inside⟩
  · obtain ⟨declaration, member, inside⟩ := types_ofDeclarations inTypes
    exact ⟨declaration, member, .inr ⟨type, inside, inType⟩⟩

end DocModule

end ApiDocs
