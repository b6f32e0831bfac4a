import FortressQL.Acl.Revocation

/-!
# Grants that go back to the owner

Every grant stays supported by grant options that lead back to the owner, as long as no grant closes
a circle of options among other roles. `check_circularity` does not refuse all of those.
-/

namespace FortressQL.Acl.SupportedGrants

open List Relation Acl Acl.Revocation Lib.Delegation

variable {oldOwner newOwner : Oid} {acl : List AclItem} (items : List AclItem)

section Owners

variable {part : Rights → BitVec 32}

theorem gives_substitute (acl : List AclItem) (oldOwner newOwner : Oid) (right : Nat)
    (giver receiver : Oid) :
    Gives part (acl.map (substituteOwner oldOwner newOwner)) right giver receiver ↔
      Renamed (substituteRole oldOwner newOwner) (Gives part acl right) giver receiver := by
  constructor
  · rintro ⟨item, member, key, holds⟩
    obtain ⟨old, oldMember, rfl⟩ := mem_map.mp member
    obtain ⟨rfl, rfl⟩ := Prod.mk.inj key
    exact ⟨old.grantor, old.grantee, rfl, rfl, old, oldMember, rfl, holds⟩
  · rintro ⟨oldGiver, oldReceiver, rfl, rfl, item, member, key, holds⟩
    obtain ⟨rfl, rfl⟩ := Prod.mk.inj key
    exact ⟨_, mem_map_of_mem member, rfl, holds⟩

theorem substitute_unique (unique : (acl.map itemKey).Nodup)
    (absent : acl.any (newPresent oldOwner newOwner) = false) :
    ((acl.map (substituteOwner oldOwner newOwner)).map itemKey).Nodup := by
  have injective {first second : Oid} (notFirst : first = oldOwner ∨ first ≠ newOwner)
      (notSecond : second = oldOwner ∨ second ≠ newOwner)
      (same : substituteRole oldOwner newOwner first = substituteRole oldOwner newOwner second) :
      first = second := by
    unfold substituteRole at same
    grind
  have others (item : AclItem) (member : item ∈ acl) :
      (item.grantee = oldOwner ∨ item.grantee ≠ newOwner) ∧
        (item.grantor = oldOwner ∨ item.grantor ≠ newOwner) := by
    have notPresent := any_eq_false.mp absent item member
    unfold newPresent at notPresent
    grind
  have keys : (acl.map (substituteOwner oldOwner newOwner)).map itemKey =
      (acl.map itemKey).map fun key =>
        (substituteRole oldOwner newOwner key.1, substituteRole oldOwner newOwner key.2) := by
    rw [List.map_map, List.map_map]
    rfl
  rw [keys]
  refine List.Nodup.map_on ?_ unique
  rintro first firstMember second secondMember same
  obtain ⟨item, member, rfl⟩ := mem_map.mp firstMember
  obtain ⟨other, otherMember, rfl⟩ := mem_map.mp secondMember
  obtain ⟨sameGrantee, sameGrantor⟩ := Prod.mk.inj same
  exact Prod.ext (injective (others item member).1 (others other otherMember).1 sameGrantee)
    (injective (others item member).2 (others other otherMember).2 sameGrantor)

theorem absorb_key (target : AclItem) (items : List AclItem) :
    itemKey (absorb target items).1 = itemKey target := by
  induction items generalizing target with
  | nil => rfl
  | cons item rest ih =>
    unfold absorb
    split
    · exact ih _
    · exact ih _

theorem absorb_rights (isPart : IsPart part) (target : AclItem) (items : List AclItem)
    (right : Nat) :
    (part (absorb target items).1.rights).getLsbD right = true ↔
      (part target.rights).getLsbD right = true ∨
        ∃ item ∈ items, itemKey item = itemKey target ∧
          (part item.rights).getLsbD right = true := by
  induction items generalizing target with
  | nil => simp [absorb]
  | cons item rest ih =>
    rw [absorb]
    split
    · rename_i taken
      have key := (match_iff target item).mp taken.2
      rw [ih, isPart.union, union_bit]
      simp only [mem_cons, exists_eq_or_imp]
      have same : itemKey { target with rights := target.rights.union item.rights } =
          itemKey target := rfl
      rw [same]
      simp [key.symm, or_assoc]
    · rename_i left
      rw [ih]
      simp only [mem_cons, exists_eq_or_imp]
      refine or_congr_right ⟨.inr, fun found => found.resolve_left ?_⟩
      rintro ⟨key, holds⟩
      exact left ⟨part_some isPart holds, (match_iff target item).mpr key.symm⟩

theorem absorb_rest (target : AclItem) (items : List AclItem) (other : AclItem)
    (some : other.rights ≠ aclNoRights) :
    other ∈ (absorb target items).2 ↔ other ∈ items ∧ itemKey other ≠ itemKey target := by
  induction items generalizing target with
  | nil => simp [absorb]
  | cons item rest ih =>
    rw [absorb]
    split
    · rename_i taken
      have key := (match_iff target item).mp taken.2
      rw [mem_cons, mem_cons, ih]
      constructor
      · rintro (rfl | ⟨later, apart⟩)
        · exact absurd rfl some
        · exact ⟨.inr later, apart⟩
      · rintro ⟨rfl | later, apart⟩
        · exact absurd key.symm apart
        · exact .inr ⟨later, apart⟩
    · rename_i left
      rw [mem_cons, mem_cons, ih]
      constructor
      · rintro (rfl | ⟨later, apart⟩)
        · exact ⟨.inl rfl, fun key => left ⟨some, (match_iff target other).mpr key.symm⟩⟩
        · exact ⟨.inr later, apart⟩
      · rintro ⟨rfl | later, apart⟩
        · exact .inl rfl
        · exact .inr ⟨later, apart⟩

theorem merge_gives (isPart : IsPart part) (items : List AclItem) (right : Nat)
    (giver receiver : Oid) :
    Gives part (mergeDuplicates items) right giver receiver ↔
      Gives part items right giver receiver := by
  induction items using mergeDuplicates.induct with
  | case1 => rw [mergeDuplicates]
  | case2 target rest none ih =>
    rw [mergeDuplicates, if_pos none, ih]
    constructor
    · rintro ⟨item, member, key, holds⟩
      exact ⟨item, mem_cons_of_mem target member, key, holds⟩
    · rintro ⟨item, member, key, holds⟩
      rcases mem_cons.mp member with rfl | later
      · exact absurd none (part_some isPart holds)
      · exact ⟨item, later, key, holds⟩
  | case3 target rest some ih =>
    have restIff : Gives part (mergeDuplicates (absorb target rest).2) right giver receiver ↔
        Gives part rest right giver receiver ∧ (receiver, giver) ≠ itemKey target := by
      rw [ih]
      constructor
      · rintro ⟨item, member, key, holds⟩
        obtain ⟨later, apart⟩ := (absorb_rest target rest item (part_some isPart holds)).mp member
        exact ⟨⟨item, later, key, holds⟩, key ▸ apart⟩
      · rintro ⟨⟨item, later, key, holds⟩, apart⟩
        exact ⟨item, (absorb_rest target rest item (part_some isPart holds)).mpr
          ⟨later, key.symm ▸ apart⟩, key, holds⟩
    have head := absorb_rights isPart target rest right
    rw [mergeDuplicates, if_neg some]
    constructor
    · rintro ⟨item, member, key, holds⟩
      rcases mem_cons.mp member with rfl | later
      · rw [absorb_key] at key
        rcases head.mp holds with own | ⟨other, found, same, otherHolds⟩
        · exact ⟨target, mem_cons_self, key, own⟩
        · exact ⟨other, mem_cons_of_mem target found, same.trans key, otherHolds⟩
      · obtain ⟨⟨other, found, same, otherHolds⟩, -⟩ := restIff.mp ⟨item, later, key, holds⟩
        exact ⟨other, mem_cons_of_mem target found, same, otherHolds⟩
    · rintro ⟨item, member, key, holds⟩
      by_cases same : itemKey item = itemKey target
      · refine ⟨(absorb target rest).1, mem_cons_self, ?_, head.mpr ?_⟩
        · rw [absorb_key, ← same, key]
        · rcases mem_cons.mp member with rfl | later
          · exact .inl holds
          · exact .inr ⟨item, later, same, holds⟩
      · have later : item ∈ rest := (mem_cons.mp member).resolve_left
          fun equal => same (congrArg itemKey equal)
        obtain ⟨other, found, otherKey, otherHolds⟩ :=
          restIff.mpr ⟨⟨item, later, key, holds⟩, key ▸ same⟩
        exact ⟨other, mem_cons_of_mem _ found, otherKey, otherHolds⟩

theorem merge_origin :
    ∀ item ∈ mergeDuplicates items, ∃ old ∈ items, itemKey old = itemKey item ∧
      old.rights ≠ aclNoRights := by
  induction items using mergeDuplicates.induct with
  | case1 =>
    intro item member
    rw [mergeDuplicates] at member
    cases member
  | case2 target rest none ih =>
    intro item member
    rw [mergeDuplicates, if_pos none] at member
    obtain ⟨old, found, key, some⟩ := ih item member
    exact ⟨old, mem_cons_of_mem target found, key, some⟩
  | case3 target rest some ih =>
    intro item member
    rw [mergeDuplicates, if_neg some] at member
    rcases mem_cons.mp member with rfl | later
    · exact ⟨target, mem_cons_self, (absorb_key target rest).symm, some⟩
    · obtain ⟨old, found, key, oldSome⟩ := ih item later
      have inRest := ((absorb_rest target rest old oldSome).mp found).1
      exact ⟨old, mem_cons_of_mem target inRest, key, oldSome⟩

theorem merge_unique : ((mergeDuplicates items).map itemKey).Nodup := by
  induction items using mergeDuplicates.induct with
  | case1 =>
    rw [mergeDuplicates]
    exact nodup_nil
  | case2 target rest none ih =>
    rw [mergeDuplicates, if_pos none]
    exact ih
  | case3 target rest some ih =>
    rw [mergeDuplicates, if_neg some]
    refine nodup_cons.mpr ⟨fun again => ?_, ih⟩
    obtain ⟨item, member, same⟩ := mem_map.mp again
    obtain ⟨old, found, key, oldSome⟩ := merge_origin _ item member
    have apart := ((absorb_rest target rest old oldSome).mp found).2
    exact apart (key.trans (same.trans (absorb_key target rest)))

theorem new_owner_gives (isPart : IsPart part) (acl : List AclItem) (oldOwner newOwner : Oid)
    (right : Nat) :
    Gives part (aclnewowner acl oldOwner newOwner) right =
      Renamed (substituteRole oldOwner newOwner) (Gives part acl right) := by
  funext giver receiver
  apply propext
  unfold aclnewowner
  split
  · rw [merge_gives isPart, gives_substitute]
  · rw [gives_substitute]

theorem new_owner_grants (acl : List AclItem) (oldOwner newOwner : Oid) (right : Nat) :
    Grants (aclnewowner acl oldOwner newOwner) right =
      Renamed (substituteRole oldOwner newOwner) (Grants acl right) :=
  new_owner_gives privs_part acl oldOwner newOwner right

theorem new_owner_options (acl : List AclItem) (oldOwner newOwner : Oid) (right : Nat) :
    Options (aclnewowner acl oldOwner newOwner) right =
      Renamed (substituteRole oldOwner newOwner) (Options acl right) :=
  new_owner_gives options_part acl oldOwner newOwner right

theorem new_owner_unique (unique : (acl.map itemKey).Nodup) (oldOwner newOwner : Oid) :
    ((aclnewowner acl oldOwner newOwner).map itemKey).Nodup := by
  unfold aclnewowner
  split
  · exact merge_unique _
  · rename_i absent
    exact substitute_unique unique (Bool.not_eq_true _ ▸ absent)

theorem well_formed_of_relations (unique : (acl.map itemKey).Nodup)
    (within : ∀ right giver receiver, Options acl right giver receiver →
      Grants acl right giver receiver)
    (toRoles : ∀ right giver, ¬ Options acl right giver aclIdPublic) : WellFormed acl := by
  refine ⟨unique, fun item member right holds => ?_, fun item member isPublic => ?_⟩
  · have granted := within right item.grantor item.grantee ⟨item, member, rfl, holds⟩
    have rights := @current_of_member acl unique item member item rfl
    exact rights ▸ (gives_current privs_part unique item right).mp granted
  · by_contra some
    obtain ⟨right, holds⟩ := exists_bit some
    exact toRoles right item.grantor ⟨item, member, by rw [itemKey, isPublic], holds⟩

theorem options_granted (wellFormed : WellFormed acl) (right : Nat) (giver receiver : Oid)
    (option : Options acl right giver receiver) : Grants acl right giver receiver := by
  obtain ⟨item, member, key, holds⟩ := option
  exact ⟨item, member, key, wellFormed.proper item member right holds⟩

theorem no_public_options (wellFormed : WellFormed acl) (right : Nat) (giver : Oid) :
    ¬ Options acl right giver aclIdPublic := by
  rintro ⟨item, member, key, holds⟩
  rw [wellFormed.public_ item member (congrArg Prod.fst key)] at holds
  simp at holds

theorem new_owner_well_formed (wellFormed : WellFormed acl) (isRole : newOwner ≠ aclIdPublic) :
    WellFormed (aclnewowner acl oldOwner newOwner) := by
  refine well_formed_of_relations (new_owner_unique wellFormed.unique oldOwner newOwner)
    (fun right giver receiver option => ?_) fun right giver option => ?_
  · rw [new_owner_options] at option
    rw [new_owner_grants]
    obtain ⟨oldGiver, oldReceiver, givers, receivers, old⟩ := option
    exact ⟨oldGiver, oldReceiver, givers, receivers, options_granted wellFormed _ _ _ old⟩
  · rw [new_owner_options] at option
    obtain ⟨oldGiver, oldReceiver, -, receivers, old⟩ := option
    unfold substituteRole at receivers
    split at receivers
    · exact isRole receivers
    · rw [receivers] at old
      exact no_public_options wellFormed _ _ old

end Owners

section Runs

structure AclState where
  acl : List AclItem
  owner : Oid
  deriving DecidableEq

inductive Call where
  | grant (mod : AclItem) (behavior : DropBehavior)
  | revoke (mod : AclItem) (behavior : DropBehavior)
  | newOwner (owner : Oid)

variable (hasPrivsOfRole : Oid → Oid → Bool)

def perform (fuel : Nat) (state : AclState) : Call → Except Stop AclState
  | .grant mod behavior =>
    (aclupdate hasPrivsOfRole fuel state.acl mod .add state.owner behavior).map fun acl =>
      { state with acl := acl }
  | .revoke mod behavior =>
    (aclupdate hasPrivsOfRole fuel state.acl mod .del state.owner behavior).map fun acl =>
      { state with acl := acl }
  | .newOwner owner => .ok { acl := aclnewowner state.acl state.owner owner, owner := owner }

def AllSupported (state : AclState) : Prop :=
  ∀ right, Supported state.owner (Grants state.acl right) (Options state.acl right)

def GrantorHolds (state : AclState) (mod : AclItem) : Prop :=
  ∀ right, mod.rights.privs.getLsbD right = true →
    Holds state.owner (Options state.acl right) mod.grantor

def NoWayBack (state : AclState) (mod : AclItem) : Prop :=
  ∀ right, mod.rights.goptions.getLsbD right = true → mod.grantor ≠ state.owner →
    mod.grantee ≠ state.owner →
      ¬ ReflTransGen (Off state.owner (Options state.acl right)) mod.grantee mod.grantor

/-- Options come with privileges and go to roles, and the owner is a role. -/
def Allowed (state : AclState) : Call → Prop
  | .grant mod _ =>
    GrantorHolds state mod ∧ NoWayBack state mod ∧ Proper mod.rights ∧
      (mod.grantee = aclIdPublic → mod.rights.goptions = 0)
  | .revoke mod _ => TakesOptions mod.rights
  | .newOwner owner => owner ≠ aclIdPublic

structure Sound (state : AclState) : Prop where
  wellFormed : WellFormed state.acl
  supported : AllSupported state
  acyclic : ∀ right, AcyclicOff state.owner (Options state.acl right)

inductive Reached (start : AclState) : AclState → Prop
  | start : Reached start start
  | call {state next : AclState} {call : Call} {fuel : Nat} (before : Reached start state)
      (allowed : Allowed state call)
      (returned : perform hasPrivsOfRole fuel state call = .ok next) :
      Reached start next

variable {hasPrivsOfRole} {state : AclState} {mod : AclItem} {fuel : Nat}

theorem sound_of_locally (wellFormed : WellFormed state.acl) (locally_ : ∀ right,
      LocallySupported state.owner (Grants state.acl right) (Options state.acl right))
    (acyclic : ∀ right, AcyclicOff state.owner (Options state.acl right)) : Sound state := by
  have finite : Finite Oid :=
    Finite.of_injective UInt32.toFin fun _ _ same => UInt32.toFin_inj.mp same
  exact ⟨wellFormed, fun right => supported_of_locally (options_granted wellFormed right)
    (locally_ right) (acyclic right), acyclic⟩

theorem grant_sound (sound : Sound state) (holds : GrantorHolds state mod)
    (noWayBack : NoWayBack state mod) (proper : Proper mod.rights)
    (toRole : mod.grantee = aclIdPublic → mod.rights.goptions = 0) :
    Sound { state with acl := changeItem mod .add state.acl } := by
  have unique := sound.wellFormed.unique
  have stillHolds {right : Nat} {role : Oid}
      (held : Holds state.owner (Options state.acl right) role) :
      Holds state.owner (Options (changeItem mod .add state.acl) right) role :=
    held.imp_right fun ⟨giver, option⟩ => ⟨giver, (gives_add options_part unique).mpr (.inl option)⟩
  refine sound_of_locally (change_well_formed sound.wellFormed ?_ ?_) ?_ ?_
  · intro right joined
    rcases union_bit.mp joined with had | added
    · exact union_bit.mpr (.inl (current_proper sound.wellFormed mod right had))
    · exact union_bit.mpr (.inr (proper right added))
  · intro isPublic
    change (currentRights mod state.acl).goptions ||| mod.rights.goptions = 0
    rw [current_public sound.wellFormed isPublic, toRole isPublic]
    exact BitVec.zero_or
  · intro right giver receiver granted
    apply stillHolds
    rcases (gives_add privs_part unique).mp granted with old | ⟨key, added⟩
    · exact locally_of_supported (sound.supported right) giver receiver old
    · obtain ⟨-, rfl⟩ := Prod.mk.inj key
      exact holds right added
  · intro right
    by_cases added : mod.rights.goptions.getLsbD right = true
    · refine acyclic_insert (sound.acyclic right) (fun giver receiver option => ?_)
        (noWayBack right added)
      rcases (gives_add options_part unique).mp option with old | ⟨key, -⟩
      · exact .inl old
      · exact .inr (Prod.mk.inj key).symm
    · exact acyclic_mono (sound.acyclic right) fun giver receiver option =>
        ((gives_add options_part unique).mp option).resolve_right fun new => added new.2

theorem new_owner_sound (sound : Sound state) (isRole : newOwner ≠ aclIdPublic) :
    Sound { acl := aclnewowner state.acl state.owner newOwner, owner := newOwner } := by
  have ownerRenamed : substituteRole state.owner newOwner state.owner = newOwner := if_pos rfl
  refine sound_of_locally (new_owner_well_formed sound.wellFormed isRole) (fun right => ?_)
    fun right => ?_
  · rw [new_owner_grants, new_owner_options]
    exact locally_supported_rename ownerRenamed (locally_of_supported (sound.supported right))
  · rw [new_owner_options]
    refine acyclic_rename ownerRenamed (fun role other => ?_) (sound.acyclic right)
    unfold substituteRole at other ⊢
    split
    · rename_i same
      rw [if_pos same] at other
      exact absurd rfl other
    · rfl

theorem settled_map {Result Image : Type} {outcome : Except Stop Result} (image : Result → Image)
    (settled : Settled outcome) : Settled (outcome.map image) := by
  cases outcome with
  | error stop =>
    intro other failed
    cases failed
    exact settled stop rfl
  | ok result => exact settled_ok _

section Separate

variable (separate : ∀ member role, hasPrivsOfRole member role = true ↔ member = role)

include separate

theorem reflexive_of_separate (role : Oid) : hasPrivsOfRole role role = true :=
  (separate role role).mpr rfl

theorem revoke_sound (sound : Sound state) {behavior : DropBehavior}
    (takes : TakesOptions mod.rights)
    (returned : aclupdate hasPrivsOfRole fuel state.acl mod .del state.owner behavior = .ok acl) :
    Sound { state with acl := acl } := by
  have proper := proper_diff (current_proper sound.wellFormed mod) takes
  obtain ⟨further, keeps, -⟩ := (revocation_spec (reflexive_of_separate separate) fuel).1 _ _ _ _
    sound.wellFormed proper returned
  have reduced := reduced_trans (delete_reduced sound.wellFormed proper) further
  have before : SupportedBut state.owner (fun _ _ => False) state.acl :=
    fun right giver receiver granted =>
      .inl (locally_of_supported (sound.supported right) giver receiver granted)
  refine sound_of_locally reduced.wellFormed (fun right giver receiver granted => ?_)
    fun right => ?_
  · refine (keeps _ (fun role _ other apart belongs _ => ?_) before right giver receiver
      granted).resolve_right id
    exact apart ((separate role other).mp belongs).symm
  · exact acyclic_mono (sound.acyclic right) (reduced.options right)

theorem call_sound {next : AclState} {call : Call} (sound : Sound state)
    (allowed : Allowed state call)
    (returned : perform hasPrivsOfRole fuel state call = .ok next) : Sound next := by
  cases call with
  | grant mod behavior =>
    obtain ⟨holds, noWayBack, proper, toRole⟩ := allowed
    cases fuel with
    | zero => cases returned
    | succ fuel =>
      rw [perform, add_result] at returned
      cases checked : (if mod.rights.goptions ≠ 0 then
          checkCircularity hasPrivsOfRole fuel state.acl mod state.owner else .ok ()) with
      | error stop =>
        rw [checked] at returned
        cases returned
      | ok done =>
        rw [checked] at returned
        cases returned
        exact grant_sound sound holds noWayBack proper toRole
  | revoke mod behavior =>
    rw [perform] at returned
    cases updated : aclupdate hasPrivsOfRole fuel state.acl mod .del state.owner behavior with
    | error stop =>
      rw [updated] at returned
      cases returned
    | ok acl =>
      rw [updated] at returned
      cases returned
      exact revoke_sound separate sound allowed updated
  | newOwner owner =>
    cases returned
    exact new_owner_sound sound allowed

theorem reached_sound {start : AclState} (sound : Sound start)
    (reached : Reached hasPrivsOfRole start state) : Sound state := by
  induction reached with
  | start => exact sound
  | call before allowed returned ih => exact call_sound separate ih allowed returned

theorem call_ends {call : Call} (sound : Sound state) (allowed : Allowed state call)
    (enough : 3 * aclWeight state.acl + 4 ≤ fuel) :
    Settled (perform hasPrivsOfRole fuel state call) := by
  cases call with
  | grant mod behavior =>
    obtain ⟨-, -, -, toRole⟩ := allowed
    obtain ⟨less, rfl⟩ : ∃ less, fuel = less + 1 := ⟨fuel - 1, by omega⟩
    rw [perform, add_result]
    refine settled_map _ (settled_then ?_ fun _ _ => settled_ok _)
    split
    · rename_i some
      exact check_circularity_ends (reflexive_of_separate separate) sound.wellFormed
        (fun isPublic => some (toRole isPublic)) (by omega)
    · exact settled_ok _
  | revoke mod behavior =>
    have proper := proper_diff (current_proper sound.wellFormed mod) allowed
    exact settled_map _
      ((revocation_ends (reflexive_of_separate separate) fuel).1 _ _ _ sound.wellFormed proper
        (by omega))
  | newOwner owner => exact settled_ok _

end Separate

/-- Where no grant closes a circle of options among roles other than the owner, every list that
calls lead to is supported. -/
theorem grants_stay_supported (hasPrivsOfRole : Oid → Oid → Bool)
    (separate : ∀ member role, hasPrivsOfRole member role = true ↔ member = role)
    (start state : AclState) (sound : Sound start) (reached : Reached hasPrivsOfRole start state) :
    AllSupported state ∧ (state.acl.map itemKey).Nodup ∧
      ∀ call, Allowed state call → ∃ enough, ∀ fuel, enough ≤ fuel →
        match perform hasPrivsOfRole fuel state call with
        | .ok next => AllSupported next ∧ (next.acl.map itemKey).Nodup
        | .error stop => ∃ report, stop = .raised report := by
  have stays := reached_sound separate sound reached
  refine ⟨stays.supported, stays.wellFormed.unique, fun call allowed => ?_⟩
  refine ⟨3 * aclWeight state.acl + 4, fun fuel enough => ?_⟩
  have settled := call_ends separate stays allowed enough
  cases outcome : perform hasPrivsOfRole fuel state call with
  | error stop => exact settled stop outcome
  | ok next =>
    have nextSound := call_sound separate stays allowed outcome
    exact ⟨nextSound.supported, nextSound.wellFormed.unique⟩

def withOption (grantor grantee : Oid) : AclItem :=
  { grantee := grantee, grantor := grantor, rights := ⟨1, 1⟩ }

theorem empty_sound (owner : Oid) : Sound ⟨[], owner⟩ := by
  have nobody (part : Rights → BitVec 32) (right : Nat) (giver receiver : Oid) :
      ¬ Gives part [] right giver receiver := by
    rintro ⟨item, member, -⟩
    cases member
  refine ⟨⟨nodup_nil, ?_, ?_⟩, ?_, ?_⟩
  · intro item member
    cases member
  · intro item member
    cases member
  · intro right giver receiver granted
    exact absurd granted (nobody _ _ _ _)
  · intro right role cycle
    obtain ⟨next, step, -⟩ := TransGen.head'_iff.mp cycle
    exact nobody _ _ _ _ step.1

theorem option_holds (grantor : Oid) {grantee receiver : Oid}
    (member : withOption grantor grantee ∈ state.acl) :
    GrantorHolds state (withOption grantee receiver) := by
  intro right holds
  exact .inr ⟨grantor, withOption grantor grantee, member, rfl, holds⟩

/-- A role passes its option on, and loses it with what it granted. -/
theorem cascading_run_supported :
    let same : Oid → Oid → Bool := fun member role => member == role
    let granted : AclState := ⟨[withOption 10 11, withOption 11 12, withOption 10 13], 10⟩
    let revoked : AclState := ⟨[withOption 10 13], 10⟩
    Reached same ⟨[], 10⟩ granted ∧ AllSupported granted ∧
      perform same 20 granted (.revoke (withOption 10 11) .cascade) = .ok revoked ∧
      AllSupported revoked := by
  intro same granted revoked
  have byOwner (acl : List AclItem) (grantee : Oid) (role : grantee ≠ aclIdPublic) :
      Allowed ⟨acl, 10⟩ (.grant (withOption 10 grantee) .restrict) :=
    ⟨fun _ _ => .inl rfl, fun _ _ notOwner => absurd rfl notOwner, fun _ holds => holds,
      fun isPublic => absurd isPublic role⟩
  have passedOn : Allowed ⟨[withOption 10 11], 10⟩ (.grant (withOption 11 12) .restrict) := by
    refine ⟨option_holds 10 (by decide), ?_, fun _ holds => holds, by decide⟩
    intro right _ _ _ back
    rcases ReflTransGen.cases_head back with same | ⟨next, ⟨⟨item, member, key, -⟩, -⟩, -⟩
    · exact absurd same (by decide)
    · have giver : item.grantor = 12 := congrArg Prod.snd key
      rw [mem_singleton.mp member] at giver
      exact absurd giver (by decide)
  have first : Reached same ⟨[], 10⟩ ⟨[withOption 10 11], 10⟩ :=
    @Reached.call _ _ _ _ _ 9 .start (byOwner [] 11 (by decide)) (by decide +kernel)
  have second : Reached same ⟨[], 10⟩ ⟨[withOption 10 11, withOption 11 12], 10⟩ :=
    @Reached.call _ _ _ _ _ 9 first passedOn (by decide +kernel)
  have third : Reached same ⟨[], 10⟩ granted :=
    @Reached.call _ _ _ _ _ 9 second (byOwner _ 13 (by decide)) (by decide +kernel)
  have taken : Allowed granted (.revoke (withOption 10 11) .cascade) := fun _ holds => holds
  have cascades : perform same 20 granted (.revoke (withOption 10 11) .cascade) = .ok revoked := by
    decide +kernel
  have supported (state : AclState) (reached : Reached same ⟨[], 10⟩ state) : AllSupported state :=
    (grants_stay_supported same (fun _ _ => beq_iff_eq) _ _ (empty_sound 10) reached).1
  exact ⟨third, supported _ third, cascades, supported _ (.call third taken cascades)⟩

/-- Two roles grant each other a right, and keep it when the owner revokes both of their grants. -/
theorem circle_stays_behind :
    let call := perform fun member role => member == role
    let start : AclState := ⟨[withOption 10 11, withOption 10 12], 10⟩
    let first : AclState := ⟨[withOption 10 11, withOption 10 12, withOption 12 11], 10⟩
    let second : AclState :=
      ⟨[withOption 10 11, withOption 10 12, withOption 12 11, withOption 11 12], 10⟩
    let third : AclState := ⟨[withOption 10 12, withOption 12 11, withOption 11 12], 10⟩
    let fourth : AclState := ⟨[withOption 12 11, withOption 11 12], 10⟩
    WellFormed start.acl ∧ AllSupported start ∧
      GrantorHolds start (withOption 12 11) ∧
      call 20 start (.grant (withOption 12 11) .restrict) = .ok first ∧
      GrantorHolds first (withOption 11 12) ∧
      call 20 first (.grant (withOption 11 12) .restrict) = .ok second ∧
      call 20 second (.revoke (withOption 10 11) .cascade) = .ok third ∧
      call 20 third (.revoke (withOption 10 12) .cascade) = .ok fourth ∧
      ¬ AllSupported fourth := by
  refine ⟨⟨by decide, ?_, ?_⟩, ?_, option_holds 10 (by decide), by decide +kernel,
    option_holds 10 (by decide), by decide +kernel, by decide +kernel, by decide +kernel, ?_⟩
  · simp [withOption, Proper]
  · simp [withOption, aclIdPublic]
  · rintro right giver receiver ⟨item, member, key, -⟩
    have byOwner : ∀ item ∈ [withOption 10 11, withOption 10 12], item.grantor = 10 := by decide
    obtain ⟨-, rfl⟩ := Prod.mk.inj key
    rw [byOwner item member]
  · intro supported
    have notByOwner : ∀ item ∈ [withOption 12 11, withOption 11 12], item.grantor ≠ 10 := by decide
    have granted : Grants [withOption 12 11, withOption 11 12] 0 12 11 :=
      ⟨withOption 12 11, by decide, rfl, by decide⟩
    rcases ReflTransGen.cases_head (supported 0 12 11 granted) with same | ⟨next, option, -⟩
    · exact absurd same (by decide)
    · obtain ⟨item, member, key, -⟩ := option
      exact notByOwner item member (congrArg Prod.snd key)

end Runs

section Members

variable (hasPrivsOfRole : Oid → Oid → Bool) (owner : Oid)

/-- Each grantor has the grant option of what it granted, by itself or through a role it belongs
to. -/
def GrantorsHold (acl : List AclItem) : Prop :=
  ∀ item ∈ acl, item.grantor = owner ∨
    heldOptions hasPrivsOfRole acl item.grantor owner item.rights.privs = item.rights.privs

instance (acl : List AclItem) : Decidable (GrantorsHold hasPrivsOfRole owner acl) :=
  inferInstanceAs (Decidable (∀ item ∈ acl, _ ∨ _))

def ThroughOther (acl : List AclItem) (role : Oid) (right : Nat) : Prop :=
  ∃ other, other ≠ role ∧ hasPrivsOfRole role other = true ∧ Holds owner (Options acl right) other

def Through (roles : Set Oid) (role : Oid) : Prop :=
  ∃ other, hasPrivsOfRole role other = true ∧ (other = owner ∨ other ∈ roles)

/-- A role that has the option even without what is taken: through roles each of which has it from
a role that has it through them. -/
def Retains (acl : List AclItem) (mod : AclItem) (right : Nat) (role : Oid) : Prop :=
  ∃ roles, Through hasPrivsOfRole owner roles role ∧ ∀ holder ∈ roles, ∃ giver,
    GivesBesides mod Rights.goptions acl right giver holder ∧
      Through hasPrivsOfRole owner roles giver

def holders (acl : List AclItem) (right : Nat) : Set Oid :=
  {role | ∃ giver, Options acl right giver role}

section Cascade

variable {hasPrivsOfRole owner} {acl result : List AclItem} {mod : AclItem} {right fuel : Nat}
  {giver receiver : Oid} (reflexive : ∀ role, hasPrivsOfRole role role = true)
  (wellFormed : WellFormed acl)

include reflexive wellFormed

theorem grantors_hold_iff :
    GrantorsHold hasPrivsOfRole owner acl ↔ ∀ right giver receiver,
      Grants acl right giver receiver → Through hasPrivsOfRole owner (holders acl right) giver := by
  constructor
  · rintro held right giver receiver ⟨item, member, key, granted⟩
    obtain rfl : item.grantor = giver := congrArg Prod.snd key
    rcases held item member with top | options
    · exact ⟨item.grantor, reflexive _, .inl top⟩
    · rw [← options] at granted
      exact ((held_options reflexive wellFormed _ _ _ right).mp granted).2
  · intro through item member
    refine .inr (BitVec.eq_of_getLsbD_eq fun right _ => ?_)
    rw [Bool.eq_iff_iff, held_options reflexive wellFormed]
    exact and_iff_left_of_imp fun granted => through right _ _ ⟨item, member, rfl, granted⟩

variable (proper : Proper ((currentRights mod acl).diff mod.rights))
  (cascaded : aclupdate hasPrivsOfRole fuel acl mod .del owner .cascade = .ok result)

include proper cascaded

theorem retained_through (retains : Retains hasPrivsOfRole owner acl mod right giver) :
    Through hasPrivsOfRole owner (holders result right) giver := by
  obtain ⟨-, -, spares⟩ := (revocation_spec reflexive fuel).1 _ _ _ _ wellFormed proper cascaded
  obtain ⟨roles, ⟨other, belongs, through⟩, sustained⟩ := retains
  have steady : Steady hasPrivsOfRole owner (changeItem mod .del acl) (fun _ _ => False)
      (fun role index => index = right ∧ Through hasPrivsOfRole owner roles role) := by
    rintro giver index ⟨rfl, next, joined, top | inside⟩
    · exact .inr ⟨next, joined, .inl top⟩
    · obtain ⟨source, option, also⟩ := sustained next inside
      have before := (gives_delete options_part wellFormed.unique).mpr option
      exact .inr ⟨next, joined, .inr ⟨source, ⟨rfl, also⟩, before⟩⟩
  refine ⟨other, belongs, through.imp_right fun inside => ?_⟩
  obtain ⟨source, option, also⟩ := sustained other inside
  exact ⟨source, spares _ _ (fun _ _ _ => False.elim) steady _ options_part source right other
    ⟨rfl, also⟩ ((gives_delete options_part wellFormed.unique).mpr option)⟩

theorem sound_retains (held : GrantorsHold hasPrivsOfRole owner result)
    (granted : Grants result right giver receiver) :
    Retains hasPrivsOfRole owner acl mod right giver := by
  have further := ((revocation_spec reflexive fuel).1 _ _ _ _ wellFormed proper cascaded).1
  have through := (grantors_hold_iff reflexive further.wellFormed).mp held right
  refine ⟨_, through giver receiver granted, ?_⟩
  rintro holder ⟨source, option⟩
  have before := further.options right source holder option
  exact ⟨source, (gives_delete options_part wellFormed.unique).mp before,
    through source holder (options_granted further.wellFormed right source holder option)⟩

end Cascade

def plainGrant (grantor grantee : Oid) : AclItem :=
  { grantee := grantee, grantor := grantor, rights := ⟨1, 0⟩ }

end Members

end FortressQL.Acl.SupportedGrants
