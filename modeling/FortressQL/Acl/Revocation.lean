import FortressQL.Acl.GrantItems
import FortressQL.Lib.Delegation
import Mathlib.Data.Finset.Card
import Mathlib.Data.List.Nodup

/-!
# What a revocation leaves

Taking rights from an item and revoking what depended on them leaves every other grant with
somebody who may give it, except grants that had nobody before.
-/

namespace FortressQL.Acl.Revocation

open List Acl Lib.Delegation Rights

variable {right index fuel : Nat} {taken left : BitVec 32} {acl : List AclItem} {modechg : Modechg}
  {behavior : DropBehavior} {mod : AclItem}

def itemKey (item : AclItem) : Oid × Oid := (item.grantee, item.grantor)

/-- Who gives a right to whom, as a privilege or as a grant option. -/
def Gives (part : Rights → BitVec 32) (acl : List AclItem) (right : Nat)
    (giver receiver : Oid) : Prop :=
  ∃ item ∈ acl, itemKey item = (receiver, giver) ∧ (part item.rights).getLsbD right = true

abbrev Grants := Gives Rights.privs

abbrev Options := Gives Rights.goptions

/-- What the list gives and a call does not take. -/
def GivesBesides (mod : AclItem) (part : Rights → BitVec 32) (acl : List AclItem) (right : Nat)
    (giver receiver : Oid) : Prop :=
  Gives part acl right giver receiver ∧
    ((receiver, giver) = itemKey mod → (part mod.rights).getLsbD right = false)

/-- The privileges or the grant options among rights. -/
structure IsPart (part : Rights → BitVec 32) : Prop where
  empty : part aclNoRights = 0
  union : ∀ old new : Rights, part (old.union new) = part old ||| part new
  diff : ∀ old taken : Rights, part (old.diff taken) = part old &&& ~~~part taken
  same : ∀ bits, part ⟨bits, bits⟩ = bits

theorem privs_part : IsPart Rights.privs := ⟨rfl, fun _ _ => rfl, fun _ _ => rfl, fun _ => rfl⟩

theorem options_part : IsPart Rights.goptions :=
  ⟨rfl, fun _ _ => rfl, fun _ _ => rfl, fun _ => rfl⟩

/-- A grant option comes with its privilege. -/
def Proper (rights : Rights) : Prop :=
  ∀ right, rights.goptions.getLsbD right = true → rights.privs.getLsbD right = true

structure WellFormed (acl : List AclItem) : Prop where
  unique : (acl.map itemKey).Nodup
  proper : ∀ item ∈ acl, Proper item.rights
  public_ : ∀ item ∈ acl, item.grantee = aclIdPublic → item.rights.goptions = 0

/-- Every grant has somebody who may give it, or is excused. -/
def SupportedBut (owner : Oid) (excused : Oid → Nat → Prop) (acl : List AclItem) : Prop :=
  ∀ right giver receiver, Grants acl right giver receiver →
    Holds owner (Options acl right) giver ∨ excused giver right

theorem match_iff (first second : AclItem) :
    aclitemMatch first second = true ↔ itemKey first = itemKey second := by
  simp [aclitemMatch, itemKey]

theorem current_of_member {acl : List AclItem} (unique : (acl.map itemKey).Nodup) {item : AclItem}
    (member : item ∈ acl) {mod : AclItem} (same : itemKey mod = itemKey item) :
    currentRights mod acl = item.rights := by
  induction acl with
  | nil => cases member
  | cons head rest ih =>
    obtain ⟨fresh, uniqueRest⟩ := nodup_cons.mp unique
    rw [currentRights]
    rcases mem_cons.mp member with rfl | later
    · rw [if_pos ((match_iff mod item).mpr same)]
    · have other : ¬ aclitemMatch mod head = true := by
        intro found
        apply fresh
        rw [← (match_iff mod head).mp found, same]
        exact mem_map_of_mem later
      rw [if_neg other]
      exact ih uniqueRest later

theorem current_cases (mod : AclItem) (acl : List AclItem) :
    currentRights mod acl = aclNoRights ∧ (∀ item ∈ acl, itemKey item ≠ itemKey mod) ∨
      ∃ item ∈ acl, itemKey item = itemKey mod ∧ currentRights mod acl = item.rights := by
  induction acl with
  | nil => exact .inl ⟨rfl, fun _ => nofun⟩
  | cons head rest ih =>
    rw [currentRights]
    by_cases found : aclitemMatch mod head = true
    · rw [if_pos found]
      exact .inr ⟨head, mem_cons_self, ((match_iff mod head).mp found).symm, rfl⟩
    · rw [if_neg found]
      rcases ih with ⟨none, others⟩ | ⟨item, member, same, rights⟩
      · refine .inl ⟨none, fun item member => ?_⟩
        rcases mem_cons.mp member with rfl | later
        · exact fun same => found ((match_iff mod item).mpr same.symm)
        · exact others item later
      · exact .inr ⟨item, mem_cons_of_mem head member, same, rights⟩

theorem emit_members (item : AclItem) (rights : Rights) (rest : List AclItem) (other : AclItem) :
    other ∈ emitItem item rights rest ↔
      other ∈ rest ∨ itemKey other = itemKey item ∧ other.rights ≠ aclNoRights ∧
        other.rights = rights := by
  have same : other = { item with rights := rights } ↔
      itemKey other = itemKey item ∧ other.rights = rights := by
    cases other
    simp [itemKey, and_assoc]
  unfold emitItem
  split
  · rename_i empty
    refine ⟨.inl, fun found => found.resolve_right ?_⟩
    rintro ⟨-, some, rfl⟩
    exact some empty
  · rename_i some
    rw [mem_cons, same]
    constructor
    · rintro (⟨key, rights⟩ | later)
      · exact .inr ⟨key, rights ▸ some, rights⟩
      · exact .inl later
    · rintro (later | ⟨key, -, rights⟩)
      · exact .inr later
      · exact .inl ⟨key, rights⟩

theorem change_members (unique : (acl.map itemKey).Nodup) (item : AclItem) :
    item ∈ changeItem mod modechg acl ↔ item ∈ acl ∧ itemKey item ≠ itemKey mod ∨
        itemKey item = itemKey mod ∧ item.rights ≠ aclNoRights ∧
          item.rights = modechg.apply (currentRights mod acl) mod.rights := by
  induction acl with
  | nil =>
    rw [changeItem, emit_members]
    simp [currentRights]
  | cons head rest ih =>
    obtain ⟨fresh, uniqueRest⟩ := nodup_cons.mp unique
    rw [changeItem, currentRights]
    by_cases found : aclitemMatch mod head = true
    · have key := (match_iff mod head).mp found
      have others : item ∈ rest → itemKey item ≠ itemKey mod := by
        intro later same
        apply fresh
        rw [← key, ← same]
        exact mem_map_of_mem later
      rw [if_pos found, if_pos found, emit_members, mem_cons, ← key]
      constructor
      · exact Or.imp_left fun later => ⟨.inr later, others later⟩
      · refine Or.imp_left fun kept => kept.1.resolve_left ?_
        rintro rfl
        exact kept.2 key.symm
    · have otherKey : itemKey head ≠ itemKey mod :=
        fun same => found ((match_iff mod head).mpr same.symm)
      rw [if_neg found, if_neg found, mem_cons, ih uniqueRest, mem_cons]
      constructor
      · rintro (rfl | ⟨later, other⟩ | changed)
        · exact .inl ⟨.inl rfl, otherKey⟩
        · exact .inl ⟨.inr later, other⟩
        · exact .inr changed
      · rintro (⟨rfl | later, other⟩ | changed)
        · exact .inl rfl
        · exact .inr (.inl ⟨later, other⟩)
        · exact .inr (.inr changed)

theorem change_unique (unique : (acl.map itemKey).Nodup) :
    ((changeItem mod modechg acl).map itemKey).Nodup := by
  induction acl with
  | nil =>
    rw [changeItem, emitItem]
    split
    · exact nodup_nil
    · exact nodup_singleton _
  | cons head rest ih =>
    obtain ⟨fresh, uniqueRest⟩ := nodup_cons.mp unique
    rw [changeItem]
    split
    · unfold emitItem
      split
      · exact uniqueRest
      · exact unique
    · rename_i found
      refine nodup_cons.mpr ⟨fun again => ?_, ih uniqueRest⟩
      obtain ⟨item, member, same⟩ := mem_map.mp again
      rcases (change_members uniqueRest item).mp member with ⟨later, -⟩ | ⟨key, -⟩
      · exact fresh (same ▸ mem_map_of_mem later)
      · exact found ((match_iff mod head).mpr (key.symm.trans same))

theorem diff_bit (holds : (left &&& ~~~taken).getLsbD right = true) :
    left.getLsbD right = true ∧ taken.getLsbD right = false := by
  simp only [BitVec.getLsbD_and, BitVec.getLsbD_not, Bool.and_eq_true, Bool.not_eq_true'] at holds
  exact ⟨holds.1, holds.2.2⟩

theorem diff_bit_of (had : left.getLsbD right = true) (kept : taken.getLsbD right = false) :
    (left &&& ~~~taken).getLsbD right = true := by
  simp only [BitVec.getLsbD_and, BitVec.getLsbD_not, had, kept, BitVec.lt_of_getLsbD had,
    decide_true, Bool.not_false, Bool.and_self]

theorem diff_bit_gone (gone : taken.getLsbD right = true) :
    (left &&& ~~~taken).getLsbD right = false := by
  rw [← Bool.not_eq_true]
  intro holds
  have kept := (diff_bit holds).2
  rw [gone] at kept
  cases kept

theorem union_bit {right : BitVec 32} :
    (left ||| right).getLsbD index = true ↔
      left.getLsbD index = true ∨ right.getLsbD index = true := by
  rw [BitVec.getLsbD_or, Bool.or_eq_true]

section Changes

variable {part : Rights → BitVec 32} (isPart : IsPart part)

include isPart

theorem part_some {rights : Rights} (holds : (part rights).getLsbD right = true) :
    rights ≠ aclNoRights := by
  intro none
  rw [none, isPart.empty] at holds
  simp at holds

variable (unique : (acl.map itemKey).Nodup)

include unique

theorem gives_current (mod : AclItem) (right : Nat) :
    Gives part acl right mod.grantor mod.grantee ↔
      (part (currentRights mod acl)).getLsbD right = true := by
  constructor
  · rintro ⟨item, member, key, holds⟩
    rwa [current_of_member unique member key.symm]
  · intro holds
    rcases current_cases mod acl with ⟨none, -⟩ | ⟨item, member, key, rights⟩
    · exact absurd none (part_some isPart holds)
    · exact ⟨item, member, key, rights ▸ holds⟩

variable {giver receiver : Oid}

theorem gives_change :
    Gives part (changeItem mod modechg acl) right giver receiver ↔
      Gives part acl right giver receiver ∧ (receiver, giver) ≠ itemKey mod ∨
        (receiver, giver) = itemKey mod ∧
          (part (modechg.apply (currentRights mod acl) mod.rights)).getLsbD right = true := by
  constructor
  · rintro ⟨item, member, key, holds⟩
    rcases (change_members unique item).mp member with ⟨old, other⟩ | ⟨same, -, rights⟩
    · exact .inl ⟨⟨item, old, key, holds⟩, key ▸ other⟩
    · exact .inr ⟨key.symm.trans same, rights ▸ holds⟩
  · rintro (⟨⟨item, member, key, holds⟩, other⟩ | ⟨same, holds⟩)
    · exact ⟨item, (change_members unique item).mpr (.inl ⟨member, key.symm ▸ other⟩), key, holds⟩
    · exact ⟨{ mod with rights := modechg.apply (currentRights mod acl) mod.rights },
        (change_members unique _).mpr (.inr ⟨rfl, part_some isPart holds, rfl⟩), same.symm, holds⟩

theorem gives_delete :
    Gives part (changeItem mod .del acl) right giver receiver ↔
      GivesBesides mod part acl right giver receiver := by
  rw [gives_change isPart unique, GivesBesides]
  change _ ∨ _ ∧ (part ((currentRights mod acl).diff mod.rights)).getLsbD right = true ↔ _
  by_cases key : (receiver, giver) = itemKey mod
  · obtain ⟨rfl, rfl⟩ := Prod.mk.inj key
    rw [gives_current isPart unique, isPart.diff]
    constructor
    · rintro (⟨-, other⟩ | ⟨-, left⟩)
      · exact absurd key other
      · exact ⟨(diff_bit left).1, fun _ => (diff_bit left).2⟩
    · rintro ⟨had, kept⟩
      exact .inr ⟨key, diff_bit_of had (kept key)⟩
  · simp [key]

theorem gives_add :
    Gives part (changeItem mod .add acl) right giver receiver ↔
      Gives part acl right giver receiver ∨
        (receiver, giver) = itemKey mod ∧ (part mod.rights).getLsbD right = true := by
  rw [gives_change isPart unique]
  change _ ∨ _ ∧ (part ((currentRights mod acl).union mod.rights)).getLsbD right = true ↔ _
  by_cases key : (receiver, giver) = itemKey mod
  · obtain ⟨rfl, rfl⟩ := Prod.mk.inj key
    simp [key, isPart.union, gives_current isPart unique]
  · simp [key]

end Changes

section Formed

theorem change_well_formed (wellFormed : WellFormed acl)
    (proper : Proper (modechg.apply (currentRights mod acl) mod.rights))
    (public_ : mod.grantee = aclIdPublic →
      (modechg.apply (currentRights mod acl) mod.rights).goptions = 0) :
    WellFormed (changeItem mod modechg acl) := by
  refine ⟨change_unique wellFormed.unique, fun item member => ?_, fun item member isPublic => ?_⟩
  · rcases (change_members wellFormed.unique item).mp member with ⟨old, -⟩ | ⟨-, -, rights⟩
    · exact wellFormed.proper item old
    · exact rights ▸ proper
  · rcases (change_members wellFormed.unique item).mp member with ⟨old, -⟩ | ⟨key, -, rights⟩
    · exact wellFormed.public_ item old isPublic
    · have same : item.grantee = mod.grantee := congrArg Prod.fst key
      exact rights ▸ public_ (same ▸ isPublic)

theorem current_public (wellFormed : WellFormed acl) (isPublic : mod.grantee = aclIdPublic) :
    (currentRights mod acl).goptions = 0 := by
  rcases current_cases mod acl with ⟨none, -⟩ | ⟨item, member, key, rights⟩
  · rw [none]
    rfl
  · have same : item.grantee = mod.grantee := congrArg Prod.fst key
    rw [rights]
    exact wellFormed.public_ item member (same.trans isPublic)

end Formed

section Weights

def bitCount (bits : BitVec 32) : Nat :=
  ((Finset.range 32).filter fun right => bits.getLsbD right = true).card

def Rights.weight (rights : Rights) : Nat := bitCount rights.privs + bitCount rights.goptions

def aclWeight (acl : List AclItem) : Nat := (acl.map fun item => Rights.weight item.rights).sum

variable {bits : BitVec 32}

section

variable {fewer : BitVec 32}
  (less : ∀ right, fewer.getLsbD right = true → bits.getLsbD right = true)

include less

theorem bit_count_mono : bitCount fewer ≤ bitCount bits :=
  Finset.card_le_card (Finset.monotone_filter_right _ fun right _ => less right)

theorem bit_count_lt {lost : Nat} (had : bits.getLsbD lost = true)
    (gone : fewer.getLsbD lost = false) : bitCount fewer < bitCount bits := by
  apply Finset.card_lt_card
  refine ⟨Finset.monotone_filter_right _ fun right _ => less right, fun back => ?_⟩
  have inRange : lost < 32 := BitVec.lt_of_getLsbD had
  have member := back (Finset.mem_filter.mpr ⟨Finset.mem_range.mpr inRange, had⟩)
  have still := (Finset.mem_filter.mp member).2
  rw [gone] at still
  cases still

end

theorem exists_bit (some : bits ≠ 0) : ∃ right, bits.getLsbD right = true := by
  by_contra none
  apply some
  apply BitVec.eq_of_getLsbD_eq
  intro right _
  have absent : bits.getLsbD right = false := by
    rw [← Bool.not_eq_true]
    exact fun holds => none ⟨right, holds⟩
  rw [absent]
  simp

theorem weight_diff_le (rights taken : Rights) :
    Rights.weight (rights.diff taken) ≤ Rights.weight rights :=
  Nat.add_le_add (bit_count_mono fun _ holds => (diff_bit holds).1)
    (bit_count_mono fun _ holds => (diff_bit holds).1)

theorem weight_diff_lt {rights taken : Rights}
    (common : rights.privs.getLsbD right = true ∧ taken.privs.getLsbD right = true ∨
      rights.goptions.getLsbD right = true ∧ taken.goptions.getLsbD right = true) :
    Rights.weight (rights.diff taken) < Rights.weight rights := by
  rcases common with ⟨had, lost⟩ | ⟨had, lost⟩
  · exact Nat.add_lt_add_of_lt_of_le
      (bit_count_lt (fun _ holds => (diff_bit holds).1) had (diff_bit_gone lost))
      (bit_count_mono fun _ holds => (diff_bit holds).1)
  · exact Nat.add_lt_add_of_le_of_lt (bit_count_mono fun _ holds => (diff_bit holds).1)
      (bit_count_lt (fun _ holds => (diff_bit holds).1) had (diff_bit_gone lost))

theorem emit_weight (item : AclItem) (rights : Rights) (rest : List AclItem) :
    aclWeight (emitItem item rights rest) = Rights.weight rights + aclWeight rest := by
  unfold emitItem
  split
  · rename_i none
    have nothing : Rights.weight aclNoRights = 0 := by decide
    rw [none, nothing, zero_add]
  · rfl

theorem change_weight (mod : AclItem) (modechg : Modechg) (acl : List AclItem) :
    aclWeight (changeItem mod modechg acl) + Rights.weight (currentRights mod acl) =
      aclWeight acl + Rights.weight (modechg.apply (currentRights mod acl) mod.rights) := by
  induction acl with
  | nil =>
    have nothing : Rights.weight aclNoRights = 0 := by decide
    rw [changeItem, emit_weight, currentRights, add_comm]
    rfl
  | cons head rest ih =>
    have headWeight : aclWeight (head :: rest) = Rights.weight head.rights + aclWeight rest := rfl
    rw [changeItem, currentRights]
    split
    · rw [emit_weight]
      omega
    · change Rights.weight head.rights + aclWeight (changeItem mod modechg rest) + _ = _
      omega

end Weights

theorem inter_bit {right : BitVec 32} :
    (left &&& right).getLsbD index = true ↔
      left.getLsbD index = true ∧ right.getLsbD index = true := by
  rw [BitVec.getLsbD_and, Bool.and_eq_true]

theorem gather_options (mask : Rights) (counts : Rights → AclItem → Bool) (counted : AclItem → Bool)
    (asks : ∀ result item, counts result item = true → counted item = true)
    (skips : ∀ result item right, counts result item = false → counted item = true →
      mask.goptions.getLsbD right = true → item.rights.goptions.getLsbD right = true →
        result.goptions.getLsbD right = true) (result : Rights)
    (within : ∀ right, result.goptions.getLsbD right = true → mask.goptions.getLsbD right = true)
    (acl : List AclItem) (right : Nat) :
    (gatherRights mask counts result acl).goptions.getLsbD right = true ↔
      result.goptions.getLsbD right = true ∨ mask.goptions.getLsbD right = true ∧
        ∃ item ∈ acl, counted item = true ∧ item.rights.goptions.getLsbD right = true := by
  induction acl generalizing result with
  | nil => simp [gatherRights]
  | cons item rest ih =>
    rw [gatherRights]
    by_cases now : counts result item = true
    · have more (index : Nat) :
          (result.union (item.rights.inter mask)).goptions.getLsbD index = true ↔
            result.goptions.getLsbD index = true ∨ item.rights.goptions.getLsbD index = true ∧
              mask.goptions.getLsbD index = true := by
        change (result.goptions ||| item.rights.goptions &&& mask.goptions).getLsbD index = _ ↔ _
        rw [union_bit, inter_bit]
      have counts := asks result item now
      rw [if_pos now]
      dsimp only
      split
      · rename_i whole
        have masked : mask.goptions.getLsbD right = true ↔ _ := whole ▸ more right
        rw [more right]
        constructor
        · rintro (had | ⟨holds, inMask⟩)
          · exact .inl had
          · exact .inr ⟨inMask, item, mem_cons_self, counts, holds⟩
        · rintro (had | ⟨inMask, -⟩)
          · exact .inl had
          · exact masked.mp inMask
      · rw [ih _ (fun index holds => ((more index).mp holds).elim (within index) And.right),
          more right]
        simp only [mem_cons, exists_eq_or_imp]
        tauto
    · have skipped := skips result item right (Bool.not_eq_true _ ▸ now)
      rw [if_neg now, ih result within]
      simp only [mem_cons, exists_eq_or_imp]
      tauto

/-- A role holds the grant options given to a role that it belongs to, and the owner's roles hold
all. -/
theorem held_options {hasPrivsOfRole : Oid → Oid → Bool}
    (reflexive : ∀ role, hasPrivsOfRole role role = true)
    (wellFormed : WellFormed acl) (role owner : Oid) (options : BitVec 32) (right : Nat) :
    (heldOptions hasPrivsOfRole acl role owner options).getLsbD right = true ↔
      options.getLsbD right = true ∧
        ∃ other, hasPrivsOfRole role other = true ∧ Holds owner (Options acl right) other := by
  unfold heldOptions aclmask
  split
  · rename_i none
    obtain rfl : options = 0 := congrArg goptions none
    simp [aclNoRights]
  · rename_i some
    have optionsSome : options ≠ 0 := fun none => some (by rw [none]; rfl)
    dsimp only
    by_cases member : hasPrivsOfRole role owner = true
    · rw [if_pos (c := options ≠ 0 ∧ _) ⟨optionsSome, member⟩, if_pos rfl]
      exact ⟨fun holds => ⟨holds, owner, member, .inl rfl⟩, And.left⟩
    · have held : (∃ other, hasPrivsOfRole role other = true ∧
            Holds owner (Options acl right) other) ↔
          ∃ item ∈ acl, hasPrivsOfRole role item.grantee = true ∧
            item.rights.goptions.getLsbD right = true := by
        constructor
        · rintro ⟨other, belongs, rfl | ⟨giver, item, found, key, holds⟩⟩
          · exact absurd belongs member
          · obtain rfl : item.grantee = other := congrArg Prod.fst key
            exact ⟨item, found, belongs, holds⟩
        · rintro ⟨item, found, belongs, holds⟩
          exact ⟨item.grantee, belongs, .inr ⟨item.grantor, item, found, rfl, holds⟩⟩
      rw [if_neg (c := options ≠ 0 ∧ _) fun both => member both.2,
        if_neg fun same => some same.symm, held]
      generalize gathered : gatherRights ⟨0, options⟩
        (fun _ item => item.grantee == aclIdPublic || item.grantee == role) aclNoRights acl = direct
      have directly (index : Nat) : direct.goptions.getLsbD index = true ↔
          options.getLsbD index = true ∧
            ∃ item ∈ acl, item.grantee = role ∧ item.rights.goptions.getLsbD index = true := by
        rw [← gathered, gather_options ⟨0, options⟩ _
          (fun item => item.grantee == aclIdPublic || item.grantee == role) (fun _ _ now => now)
          (fun _ _ _ never now => absurd now (by rw [never]; decide)) aclNoRights
          (fun index holds => by simp [aclNoRights] at holds)]
        simp only [Bool.or_eq_true, beq_iff_eq]
        constructor
        · rintro (holds | ⟨wanted, item, found, isPublic | own, holds⟩)
          · simp [aclNoRights] at holds
          · rw [wellFormed.public_ item found isPublic] at holds
            simp at holds
          · exact ⟨wanted, item, found, own, holds⟩
        · rintro ⟨wanted, item, found, own, holds⟩
          exact .inr ⟨wanted, item, found, .inr own, holds⟩
      split
      · rename_i whole
        refine ⟨fun holds => ?_, fun ⟨wanted, _⟩ => by rw [whole]; exact wanted⟩
        obtain ⟨wanted, item, found, own, had⟩ := (directly right).mp holds
        exact ⟨wanted, item, found, own ▸ reflexive _, had⟩
      · rw [gather_options ⟨0, options⟩ _ (fun item =>
          !(item.grantee == aclIdPublic || item.grantee == role) &&
            hasPrivsOfRole role item.grantee) ?_ ?_ direct
          (fun index holds => ((directly index).mp holds).1), directly]
        · constructor
          · rintro (⟨wanted, item, found, own, had⟩ | ⟨wanted, item, found, counted, had⟩)
            · exact ⟨wanted, item, found, own ▸ reflexive _, had⟩
            · exact ⟨wanted, item, found, (Bool.and_eq_true_iff.mp counted).2, had⟩
          · rintro ⟨wanted, item, found, belongs, had⟩
            by_cases own : item.grantee = role
            · exact .inl ⟨wanted, item, found, own, had⟩
            · have notPublic : item.grantee ≠ aclIdPublic := by
                intro isPublic
                rw [wellFormed.public_ item found isPublic] at had
                simp at had
              exact .inr ⟨wanted, item, found, by simp [own, notPublic, belongs], had⟩
        · intro result item now
          rw [Bool.and_eq_true, Bool.and_eq_true] at now
          exact Bool.and_eq_true_iff.mpr ⟨now.1.1, now.2⟩
        · intro result item index never counted wanted had
          by_contra missing
          have common : (item.rights.inter (diff ⟨0, options⟩ result)).goptions.getLsbD
              index = true :=
            inter_bit.mpr ⟨had, diff_bit_of wanted (Bool.not_eq_true _ ▸ missing)⟩
          have interesting : item.rights.inter (diff ⟨0, options⟩ result) ≠ aclNoRights := by
            intro none
            rw [none] at common
            simp [aclNoRights] at common
          rw [Bool.and_eq_true] at counted
          rw [counted.1, counted.2, decide_eq_true interesting] at never
          cases never

section Revoking

variable {hasPrivsOfRole : Oid → Oid → Bool} {owner : Oid}

structure Reduced (before after : List AclItem) : Prop where
  wellFormed : WellFormed after
  grants : ∀ right giver receiver, Grants after right giver receiver →
    Grants before right giver receiver
  options : ∀ right giver receiver, Options after right giver receiver →
    Options before right giver receiver
  weight : aclWeight after ≤ aclWeight before

theorem reduced_refl (wellFormed : WellFormed acl) : Reduced acl acl :=
  ⟨wellFormed, fun _ _ _ holds => holds, fun _ _ _ holds => holds, le_refl _⟩

theorem reduced_trans {first second third : List AclItem} (earlier : Reduced first second)
    (later : Reduced second third) : Reduced first third :=
  ⟨later.wellFormed,
    fun right giver receiver holds =>
      earlier.grants right giver receiver (later.grants right giver receiver holds),
    fun right giver receiver holds =>
      earlier.options right giver receiver (later.options right giver receiver holds),
    le_trans later.weight earlier.weight⟩

variable {excused : Oid → Nat → Prop}

/-- The grant options that a deletion takes. -/
def lostOptions (mod : AclItem) (acl : List AclItem) : BitVec 32 :=
  (currentRights mod acl).goptions &&& ~~~((currentRights mod acl).diff mod.rights).goptions

section

variable (wellFormed : WellFormed acl) (proper : Proper ((currentRights mod acl).diff mod.rights))

include wellFormed proper

theorem delete_reduced : Reduced acl (changeItem mod .del acl) := by
  refine ⟨change_well_formed wellFormed proper fun isPublic => ?_,
    fun _ _ _ holds => ((gives_delete privs_part wellFormed.unique).mp holds).1,
    fun _ _ _ holds => ((gives_delete options_part wellFormed.unique).mp holds).1, ?_⟩
  · change (currentRights mod acl).goptions &&& _ = 0
    rw [current_public wellFormed isPublic]
    exact BitVec.zero_and
  · have balance := change_weight mod .del acl
    have smaller := weight_diff_le (currentRights mod acl) mod.rights
    change _ = aclWeight acl + Rights.weight ((currentRights mod acl).diff mod.rights) at balance
    omega

theorem delete_supported (supported : SupportedBut owner excused acl) :
    SupportedBut owner
      (fun role right => excused role right ∨
        role = mod.grantee ∧ (lostOptions mod acl).getLsbD right = true)
      (changeItem mod .del acl) := by
  intro right giver receiver granted
  rcases supported right giver receiver ((delete_reduced wellFormed proper).grants _ _ _ granted)
    with (top | ⟨earlier, option⟩) | excuse
  · exact .inl (.inl top)
  · by_cases kept : (giver, earlier) = itemKey mod → mod.rights.goptions.getLsbD right = false
    · exact .inl (.inr ⟨earlier, (gives_delete options_part wellFormed.unique).mpr ⟨option, kept⟩⟩)
    · obtain ⟨key, taken⟩ := Classical.not_imp.mp kept
      obtain ⟨rfl, rfl⟩ := Prod.mk.inj key
      have had := (gives_current options_part wellFormed.unique mod right).mp option
      exact .inr (.inr ⟨rfl, diff_bit_of had (diff_bit_gone (Bool.not_eq_false _ ▸ taken))⟩)
  · exact .inr (.inl excuse)

end

theorem current_proper (wellFormed : WellFormed acl) (mod : AclItem) :
    Proper (currentRights mod acl) := by
  rcases current_cases mod acl with ⟨none, -⟩ | ⟨item, member, -, rights⟩
  · rw [none]
    intro right holds
    simp [aclNoRights] at holds
  · rw [rights]
    exact wellFormed.proper item member

/-- Privileges are taken together with their grant options. -/
def TakesOptions (rights : Rights) : Prop :=
  ∀ right, rights.privs.getLsbD right = true → rights.goptions.getLsbD right = true

theorem proper_diff {rights taken : Rights} (proper : Proper rights)
    (takes : TakesOptions taken) : Proper (rights.diff taken) := by
  intro right holds
  obtain ⟨had, kept⟩ := diff_bit holds
  refine diff_bit_of (proper right had) ?_
  rw [← Bool.not_eq_true]
  intro taken
  rw [takes right taken] at kept
  cases kept

theorem takes_same (bits : BitVec 32) : TakesOptions ⟨bits, bits⟩ := fun _ holds => holds

/-- What these roles gave is still given. -/
def Keeps (givers : Oid → Nat → Prop) (before after : List AclItem) : Prop :=
  ∀ part, IsPart part → ∀ giver right receiver, givers giver right →
    Gives part before right giver receiver → Gives part after right giver receiver

theorem keeps_refl {givers : Oid → Nat → Prop} : Keeps givers acl acl :=
  fun _ _ _ _ _ _ given => given

theorem keeps_trans {givers : Oid → Nat → Prop} {first second third : List AclItem}
    (earlier : Keeps givers first second) (later : Keeps givers second third) :
    Keeps givers first third := by
  intro part isPart giver right receiver gives given
  exact later part isPart _ _ _ gives (earlier part isPart _ _ _ gives given)

theorem delete_keeps {givers : Oid → Nat → Prop} (wellFormed : WellFormed acl) (grantee : Oid)
    {grantor : Oid} {bits : BitVec 32}
    (others : ∀ right, bits.getLsbD right = true → ¬ givers grantor right) :
    Keeps givers acl (changeItem ⟨grantee, grantor, ⟨bits, bits⟩⟩ .del acl) := by
  intro part isPart giver right receiver gives given
  refine (gives_delete isPart wellFormed.unique).mpr ⟨given, fun key => ?_⟩
  obtain ⟨-, rfl⟩ := Prod.mk.inj key
  rw [isPart.same, ← Bool.not_eq_true]
  exact fun taken => others right taken gives

def Idle (acl : List AclItem) (idle : Oid → Nat → Prop) : Prop :=
  ∀ role right source, idle role right → ¬ Options acl right source role

variable (hasPrivsOfRole owner)

/-- Roles with no option to lose, or with an option that comes from one of them. -/
def Steady (acl : List AclItem) (idle givers : Oid → Nat → Prop) : Prop :=
  ∀ giver right, givers giver right → idle giver right ∨
    ∃ other, hasPrivsOfRole giver other = true ∧
      (other = owner ∨ ∃ source, givers source right ∧ Options acl right source other)

/-- Roles that belong to another role with the grant option are excused. -/
def Lenient (acl : List AclItem) (excused : Oid → Nat → Prop) : Prop :=
  ∀ role right other, other ≠ role → hasPrivsOfRole role other = true →
    Holds owner (Options acl right) other → excused role right

def UpdateSpec (fuel : Nat) : Prop :=
  ∀ (acl : List AclItem) (mod : AclItem) (behavior : DropBehavior) (result : List AclItem),
    WellFormed acl → Proper ((currentRights mod acl).diff mod.rights) →
      aclupdate hasPrivsOfRole fuel acl mod .del owner behavior = .ok result →
        Reduced (changeItem mod .del acl) result ∧
          (∀ excused, Lenient hasPrivsOfRole owner acl excused → SupportedBut owner excused acl →
            SupportedBut owner excused result) ∧
          ∀ idle givers, Idle acl idle →
            Steady hasPrivsOfRole owner (changeItem mod .del acl) idle givers →
              Keeps givers (changeItem mod .del acl) result

def Mends (acl : List AclItem) (grantee : Oid) (revokePrivs : BitVec 32)
    (result : List AclItem) : Prop :=
  Reduced acl result ∧
    ∀ excused : Oid → Nat → Prop, Lenient hasPrivsOfRole owner acl excused →
      SupportedBut owner (fun role right => excused role right ∨
        role = grantee ∧ revokePrivs.getLsbD right = true) acl →
          SupportedBut owner excused result

def RevokeSpec (fuel : Nat) : Prop :=
  ∀ (acl : List AclItem) (grantee : Oid) (revokePrivs : BitVec 32) (behavior : DropBehavior)
    (result : List AclItem), WellFormed acl →
      recursiveRevoke hasPrivsOfRole fuel acl grantee revokePrivs owner behavior = .ok result →
        Mends hasPrivsOfRole owner acl grantee revokePrivs result ∧
          ∀ idle givers, Idle acl idle → Steady hasPrivsOfRole owner acl idle givers →
            (∀ right, revokePrivs.getLsbD right = true → ¬ idle grantee right) →
              Keeps givers acl result

def RestartSpec (fuel : Nat) : Prop :=
  ∀ (acl : List AclItem) (grantee : Oid) (revokePrivs : BitVec 32) (behavior : DropBehavior)
    (result : List AclItem), WellFormed acl →
      revokeRestart hasPrivsOfRole fuel acl grantee revokePrivs owner behavior = .ok result →
        Mends hasPrivsOfRole owner acl grantee revokePrivs result ∧
          ∀ idle givers, Idle acl idle → Steady hasPrivsOfRole owner acl idle givers →
            (∀ right, revokePrivs.getLsbD right = true → ¬ givers grantee right) →
              Keeps givers acl result

variable {hasPrivsOfRole owner}

theorem supported_weaken {weaker : Oid → Nat → Prop} (supported : SupportedBut owner excused acl)
    (weaken : ∀ role right, excused role right →
      Holds owner (Options acl right) role ∨ weaker role right) :
    SupportedBut owner weaker acl := by
  intro right giver receiver granted
  rcases supported right giver receiver granted with holds | excuse
  · exact .inl holds
  · exact weaken giver right excuse

theorem Lenient.reduced {result : List AclItem} (lenient : Lenient hasPrivsOfRole owner acl excused)
    (reduced : Reduced acl result) : Lenient hasPrivsOfRole owner result excused :=
  fun role right other apart belongs holds => lenient role right other apart belongs
    (holds.imp_right fun ⟨giver, option⟩ => ⟨giver, reduced.options right giver other option⟩)

theorem Steady.keeps {idle givers : Oid → Nat → Prop} {result : List AclItem}
    (steady : Steady hasPrivsOfRole owner acl idle givers) (keeps : Keeps givers acl result) :
    Steady hasPrivsOfRole owner result idle givers :=
  fun giver right gives => (steady giver right gives).imp_right fun ⟨other, belongs, through⟩ =>
    ⟨other, belongs, through.imp_right fun ⟨source, also, option⟩ =>
      ⟨source, also, keeps _ options_part source right other also option⟩⟩

theorem Idle.reduced {idle : Oid → Nat → Prop} {result : List AclItem} (none : Idle acl idle)
    (reduced : Reduced acl result) : Idle result idle :=
  fun role right source isIdle option =>
    none role right source isIdle (reduced.options right source role option)

theorem delete_result :
    aclupdate hasPrivsOfRole (fuel + 1) acl mod .del owner behavior =
      if lostOptions mod acl = 0 then .ok (changeItem mod .del acl)
      else if mod.grantee = aclIdPublic then .error .assertion
      else
        recursiveRevoke hasPrivsOfRole fuel (changeItem mod .del acl) mod.grantee
          (lostOptions mod acl) owner behavior := by
  rfl

theorem update_step (revokes : RevokeSpec hasPrivsOfRole owner fuel) :
    UpdateSpec hasPrivsOfRole owner (fuel + 1) := by
  intro acl mod behavior result wellFormed proper returned
  have reduced := delete_reduced wellFormed proper
  rw [delete_result] at returned
  split at returned
  · rename_i nothing
    cases returned
    refine ⟨reduced_refl reduced.wellFormed, fun excused _ supported => ?_,
      fun _ _ _ _ => keeps_refl⟩
    refine supported_weaken (delete_supported wellFormed proper supported) ?_
    rintro role right (excuse | ⟨-, lost⟩)
    · exact .inr excuse
    · rw [nothing] at lost
      simp at lost
  · split at returned
    · cases returned
    · obtain ⟨⟨further, mends⟩, spares⟩ := revokes _ _ _ _ _ reduced.wellFormed returned
      refine ⟨further, fun excused lenient supported =>
        mends excused (lenient.reduced reduced) (delete_supported wellFormed proper supported),
        fun idle givers none steady => spares idle givers (none.reduced reduced) steady ?_⟩
      intro right lost isIdle
      exact none _ _ mod.grantor isIdle
        ((gives_current options_part wellFormed.unique mod right).mpr (diff_bit lost).1)

theorem revoke_step (reflexive : ∀ role, hasPrivsOfRole role role = true)
    (restarts : RestartSpec hasPrivsOfRole owner fuel) :
    RevokeSpec hasPrivsOfRole owner (fuel + 1) := by
  intro acl grantee revokePrivs behavior result wellFormed returned
  rw [recursiveRevoke] at returned
  have held := held_options reflexive wellFormed grantee owner revokePrivs
  split at returned
  · rename_i isOwner
    cases returned
    refine ⟨⟨reduced_refl wellFormed, fun excused _ supported => supported_weaken supported ?_⟩,
      fun _ _ _ _ _ => keeps_refl⟩
    rintro role right (excuse | ⟨rfl, -⟩)
    · exact .inr excuse
    · exact .inl (.inl isOwner)
  · dsimp only at returned
    -- what is still held is no excuse, the rest is revoked
    have remaining (excused : Oid → Nat → Prop) (lenient : Lenient hasPrivsOfRole owner acl excused)
        (supported : SupportedBut owner (fun role right => excused role right ∨
          role = grantee ∧ revokePrivs.getLsbD right = true) acl) :
        SupportedBut owner (fun role right => excused role right ∨ role = grantee ∧
          (revokePrivs &&& ~~~heldOptions hasPrivsOfRole acl grantee owner revokePrivs).getLsbD
            right = true) acl := by
      refine supported_weaken supported ?_
      rintro role right (excuse | ⟨rfl, revoked⟩)
      · exact .inr (.inl excuse)
      · by_cases still :
            (heldOptions hasPrivsOfRole acl role owner revokePrivs).getLsbD right = true
        · obtain ⟨-, other, belongs, holds⟩ := (held right).mp still
          by_cases own : other = role
          · exact .inl (own ▸ holds)
          · exact .inr (.inl (lenient role right other own belongs holds))
        · exact .inr (.inr ⟨rfl, diff_bit_of revoked (Bool.not_eq_true _ ▸ still)⟩)
    split at returned
    · rename_i nothing
      cases returned
      refine ⟨⟨reduced_refl wellFormed, fun excused lenient supported => ?_⟩,
        fun _ _ _ _ _ => keeps_refl⟩
      refine supported_weaken (remaining excused lenient supported) ?_
      rintro role right (excuse | ⟨-, lost⟩)
      · exact .inr excuse
      · rw [nothing] at lost
        simp at lost
    · obtain ⟨⟨reduced, mends⟩, spares⟩ := restarts _ _ _ _ _ wellFormed returned
      refine ⟨⟨reduced, fun excused lenient supported =>
        mends excused lenient (remaining excused lenient supported)⟩,
        fun idle givers none steady active => spares idle givers none steady ?_⟩
      intro right lost gives
      obtain ⟨revoked, notHeld⟩ := diff_bit lost
      rcases steady grantee right gives with isIdle | ⟨other, belongs, through⟩
      · exact active right revoked isIdle
      · have still := (held right).mpr ⟨revoked, other, belongs,
          through.imp_right fun ⟨source, _, option⟩ => ⟨source, option⟩⟩
        rw [notHeld] at still
        cases still

theorem restart_step (updates : UpdateSpec hasPrivsOfRole owner fuel)
    (restarts : RestartSpec hasPrivsOfRole owner fuel) :
    RestartSpec hasPrivsOfRole owner (fuel + 1) := by
  intro acl grantee revokePrivs behavior result wellFormed returned
  rw [revokeRestart] at returned
  split at returned
  · rename_i none
    cases returned
    refine ⟨⟨reduced_refl wellFormed, fun excused _ supported => ?_⟩,
      fun _ _ _ _ _ => keeps_refl⟩
    rintro right giver receiver ⟨item, member, key, holds⟩
    rcases supported right giver receiver ⟨item, member, key, holds⟩ with
      held | excuse | ⟨same, lost⟩
    · exact .inl held
    · exact .inr excuse
    · have grantor : item.grantor = grantee := (congrArg Prod.snd key).trans same
      have absent := List.find?_eq_none.mp none item member
      exfalso
      apply absent
      rw [Bool.and_eq_true, beq_iff_eq, bne_iff_ne]
      refine ⟨grantor, fun nothing => ?_⟩
      have common := inter_bit.mpr ⟨holds, lost⟩
      rw [nothing] at common
      simp at common
  · rename_i item found
    split at returned
    · cases returned
    · obtain ⟨middle, updated, restarted⟩ := FortressQL.Elog.sequence_returns.mp returned
      have proper := proper_diff (current_proper wellFormed
        ⟨item.grantee, grantee, ⟨revokePrivs, revokePrivs⟩⟩) (takes_same revokePrivs)
      obtain ⟨reduced, keeps, leaves⟩ := updates _ _ _ _ wellFormed proper updated
      have first := reduced_trans (delete_reduced wellFormed proper) reduced
      obtain ⟨⟨second, mends⟩, spares⟩ := restarts _ _ _ _ _ first.wellFormed restarted
      refine ⟨⟨reduced_trans first second, fun excused lenient supported =>
        mends excused (lenient.reduced first) (keeps _ (fun role right other apart belongs holds =>
          .inl (lenient role right other apart belongs holds)) supported)⟩, ?_⟩
      intro idle givers none steady others
      have taken := delete_keeps wellFormed item.grantee others
      have updatedKeeps := keeps_trans taken (leaves idle givers none (steady.keeps taken))
      exact keeps_trans updatedKeeps
        (spares idle givers (none.reduced first) (steady.keeps updatedKeeps) others)

theorem revocation_spec (reflexive : ∀ role, hasPrivsOfRole role role = true) (fuel : Nat) :
    UpdateSpec hasPrivsOfRole owner fuel ∧ RevokeSpec hasPrivsOfRole owner fuel ∧
      RestartSpec hasPrivsOfRole owner fuel := by
  induction fuel with
  | zero =>
    refine ⟨?_, ?_, ?_⟩
    · intro acl mod behavior result _ _ returned
      cases returned
    · intro acl grantee revokePrivs behavior result _ returned
      cases returned
    · intro acl grantee revokePrivs behavior result _ returned
      cases returned
  | succ fuel ih =>
    obtain ⟨updates, revokes, restarts⟩ := ih
    exact ⟨update_step revokes, revoke_step reflexive restarts, restart_step updates restarts⟩

end Revoking

section Termination

variable {hasPrivsOfRole : Oid → Oid → Bool} {owner : Oid}

def Settled {Result : Type} (outcome : Except Stop Result) : Prop :=
  ∀ stop, outcome = .error stop → ∃ report, stop = .raised report

theorem settled_ok {Result : Type} (result : Result) : Settled (.ok result) := by
  intro stop failed
  cases failed

theorem settled_then {First Result : Type} {first : Except Stop First}
    {next : First → Except Stop Result} (settled : Settled first)
    (then_ : ∀ value, first = .ok value → Settled (next value)) : Settled (first >>= next) := by
  cases first with
  | error stop =>
    intro other failed
    cases failed
    exact settled stop rfl
  | ok value => exact then_ value rfl

variable (hasPrivsOfRole owner)

def UpdateEnds (fuel : Nat) : Prop :=
  ∀ (acl : List AclItem) (mod : AclItem) (behavior : DropBehavior), WellFormed acl →
    Proper ((currentRights mod acl).diff mod.rights) → 3 * aclWeight acl + 1 ≤ fuel →
      Settled (aclupdate hasPrivsOfRole fuel acl mod .del owner behavior)

def RevokeEnds (fuel : Nat) : Prop :=
  ∀ (acl : List AclItem) (grantee : Oid) (revokePrivs : BitVec 32) (behavior : DropBehavior),
    WellFormed acl → 3 * aclWeight acl + 3 ≤ fuel →
      Settled (recursiveRevoke hasPrivsOfRole fuel acl grantee revokePrivs owner behavior)

def RestartEnds (fuel : Nat) : Prop :=
  ∀ (acl : List AclItem) (grantee : Oid) (revokePrivs : BitVec 32) (behavior : DropBehavior),
    WellFormed acl → 3 * aclWeight acl + 2 ≤ fuel →
      Settled (revokeRestart hasPrivsOfRole fuel acl grantee revokePrivs owner behavior)

variable {hasPrivsOfRole owner}

theorem delete_lighter (common : (currentRights mod acl).privs.getLsbD right = true ∧
        mod.rights.privs.getLsbD right = true ∨
      (currentRights mod acl).goptions.getLsbD right = true ∧
        mod.rights.goptions.getLsbD right = true) :
    aclWeight (changeItem mod .del acl) < aclWeight acl := by
  have balance := change_weight mod .del acl
  have smaller := weight_diff_lt common
  change _ = aclWeight acl + Rights.weight ((currentRights mod acl).diff mod.rights) at balance
  omega

theorem update_ends_step (revokes : RevokeEnds hasPrivsOfRole owner fuel) :
    UpdateEnds hasPrivsOfRole owner (fuel + 1) := by
  intro acl mod behavior wellFormed proper enough
  have reduced := delete_reduced wellFormed proper
  rw [delete_result]
  split
  · exact settled_ok _
  · rename_i some
    split
    · rename_i isPublic
      exfalso
      apply some
      rw [lostOptions, current_public wellFormed isPublic]
      exact BitVec.zero_and
    · obtain ⟨right, lost⟩ := exists_bit some
      obtain ⟨had, gone⟩ := diff_bit lost
      have taken : mod.rights.goptions.getLsbD right = true := by
        by_contra kept
        have left : ((currentRights mod acl).diff mod.rights).goptions.getLsbD right = true :=
          diff_bit_of had (Bool.not_eq_true _ ▸ kept)
        rw [left] at gone
        cases gone
      have lighter := delete_lighter (.inr ⟨had, taken⟩)
      exact revokes _ _ _ _ reduced.wellFormed (by omega)

theorem revoke_ends_step (restarts : RestartEnds hasPrivsOfRole owner fuel) :
    RevokeEnds hasPrivsOfRole owner (fuel + 1) := by
  intro acl grantee revokePrivs behavior wellFormed enough
  rw [recursiveRevoke]
  split
  · exact settled_ok _
  · dsimp only
    split
    · exact settled_ok _
    · exact restarts _ _ _ _ wellFormed (by omega)

section

variable (reflexive : ∀ role, hasPrivsOfRole role role = true)

include reflexive

theorem restart_lighter {result : List AclItem} {item : AclItem} (wellFormed : WellFormed acl)
    (proper : Proper ((currentRights mod acl).diff mod.rights)) (member : item ∈ acl)
    (key : itemKey mod = itemKey item)
    (common : item.rights.privs.getLsbD right = true ∧ mod.rights.privs.getLsbD right = true ∨
      item.rights.goptions.getLsbD right = true ∧ mod.rights.goptions.getLsbD right = true)
    (updated : aclupdate hasPrivsOfRole fuel acl mod .del owner behavior = .ok result) :
    WellFormed result ∧ aclWeight result < aclWeight acl := by
  obtain ⟨reduced, -⟩ := (revocation_spec reflexive fuel).1 acl mod behavior result wellFormed
    proper updated
  have rights := current_of_member wellFormed.unique member key
  exact ⟨reduced.wellFormed, lt_of_le_of_lt reduced.weight (delete_lighter (rights ▸ common))⟩

theorem restart_ends_step (updates : UpdateEnds hasPrivsOfRole owner fuel)
    (restarts : RestartEnds hasPrivsOfRole owner fuel) :
    RestartEnds hasPrivsOfRole owner (fuel + 1) := by
  intro acl grantee revokePrivs behavior wellFormed enough
  rw [revokeRestart]
  split
  · exact settled_ok _
  · rename_i item found
    split
    · intro stop failed
      cases failed
      exact ⟨dependentPrivileges, rfl⟩
    · have proper := proper_diff (current_proper wellFormed
        ⟨item.grantee, grantee, ⟨revokePrivs, revokePrivs⟩⟩) (takes_same revokePrivs)
      refine settled_then (updates _ _ _ wellFormed proper (by omega)) fun middle updated => ?_
      have holds := List.find?_some found
      rw [Bool.and_eq_true, beq_iff_eq, bne_iff_ne] at holds
      obtain ⟨right, common⟩ := exists_bit holds.2
      obtain ⟨formed, lighter⟩ := restart_lighter reflexive wellFormed proper
        (mem_of_find?_eq_some found) (by rw [itemKey, itemKey, holds.1])
        (.inl (inter_bit.mp common)) updated
      exact restarts _ _ _ _ formed (by omega)

theorem revocation_ends (fuel : Nat) :
    UpdateEnds hasPrivsOfRole owner fuel ∧ RevokeEnds hasPrivsOfRole owner fuel ∧
      RestartEnds hasPrivsOfRole owner fuel := by
  induction fuel with
  | zero =>
    refine ⟨?_, ?_, ?_⟩
    · intro acl mod behavior _ _ enough
      omega
    · intro acl grantee revokePrivs behavior _ enough
      omega
    · intro acl grantee revokePrivs behavior _ enough
      omega
  | succ fuel ih =>
    obtain ⟨updates, revokes, restarts⟩ := ih
    exact ⟨update_ends_step revokes, revoke_ends_step restarts,
      restart_ends_step reflexive updates restarts⟩

theorem circularity_restart_ends (fuel : Nat) (grantee : Oid) (wellFormed : WellFormed acl)
    (enough : 3 * aclWeight acl + 2 ≤ fuel) :
    Settled (circularityRestart hasPrivsOfRole fuel acl grantee owner) := by
  induction fuel generalizing acl with
  | zero => omega
  | succ fuel ih =>
    rw [circularityRestart]
    split
    · exact settled_ok _
    · rename_i item found
      have member := mem_of_find?_eq_some found
      have rights := @current_of_member acl wellFormed.unique item member item rfl
      have proper : Proper ((currentRights item acl).diff item.rights) := by
        rw [rights]
        intro right holds
        obtain ⟨had, gone⟩ := diff_bit holds
        rw [had] at gone
        cases gone
      refine settled_then ((revocation_ends reflexive fuel).1 _ _ _ wellFormed proper (by omega))
        fun middle updated => ?_
      have holds := List.find?_some found
      rw [Bool.and_eq_true, bne_iff_ne] at holds
      obtain ⟨right, has⟩ := exists_bit holds.2
      obtain ⟨formed, lighter⟩ := restart_lighter reflexive wellFormed proper member rfl
        (.inr ⟨has, has⟩) updated
      exact ih formed (by omega)

theorem check_circularity_ends (wellFormed : WellFormed acl) (toRole : mod.grantee ≠ aclIdPublic)
    (enough : 3 * aclWeight acl + 3 ≤ fuel) :
    Settled (checkCircularity hasPrivsOfRole fuel acl mod owner) := by
  cases fuel with
  | zero => omega
  | succ fuel =>
    rw [checkCircularity, if_neg toRole]
    split
    · exact settled_ok _
    · refine settled_then (circularity_restart_ends reflexive fuel mod.grantee wellFormed
        (by omega)) fun trial _ => ?_
      dsimp only
      split
      · intro stop failed
        cases failed
        exact ⟨grantedBack, rfl⟩
      · exact settled_ok _

end

theorem add_loses_nothing (old mod : BitVec 32) : old &&& ~~~(old ||| mod) = 0 := by
  by_contra some
  obtain ⟨right, lost⟩ := exists_bit some
  obtain ⟨had, gone⟩ := diff_bit lost
  rw [union_bit.mpr (.inl had)] at gone
  cases gone

theorem add_result :
    aclupdate hasPrivsOfRole (fuel + 1) acl mod .add owner behavior =
      (if mod.rights.goptions ≠ 0 then checkCircularity hasPrivsOfRole fuel acl mod owner
        else .ok ()) >>= fun _ => .ok (changeItem mod .add acl) := by
  have nothing := add_loses_nothing (currentRights mod acl).goptions mod.rights.goptions
  rw [aclupdate]
  simp [Modechg.apply, union, nothing]

end Termination

end FortressQL.Acl.Revocation
