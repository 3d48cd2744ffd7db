import AgentOS.Lib.Durable
import AgentOS.Raft.Membership

/-!
# Reconfiguration is fenced by generations

`inspectWritten_selected` says what each decision of `inspect_durable_membership` establishes. From
it follows what a commit leaves (`selectedCommits_commits`): an epoch that stays or moves one of its
two generations by one, and voter configurations that change only towards the configured voters.

`membership_generation_fenced`: along every run the two generations move by at most one, one at a
time; a generation has one digest; the voters become only the set that the current generation
announced; and no voter is missing from the catalog.
-/

namespace AgentOS

open Lib

/-! ## What the inspection establishes -/

theorem eq_of_agreedOn {α : Type} [DecidableEq α] {values : List α} {v : α}
    (h : agreedOn values = some v) : ∀ x ∈ values, x = v := by
  obtain ⟨-, hall⟩ := Option.filter_eq_some_iff.1 h
  simpa using hall

variable {nodes : OrdMap Nat ClusterRaftNode} {node : ClusterRaftNode}

theorem lookup_of_trustedSubset {same : ClusterRaftNode → ClusterRaftNode → Bool}
    {trusted : OrdMap Nat ClusterRaftNode} (h : trustedSubset same trusted nodes = true)
    {nodeId : Nat} (hnode : nodes[nodeId]? = some node) : ∃ want, trusted[nodeId]? = some want := by
  have hen := List.all_eq_true.1 h (nodeId, node) (OrdMap.mem_toList_iff.2 hnode)
  obtain ⟨want, he, -⟩ := (Option.any_eq_true _ _).1 hen
  exact ⟨want, he⟩

variable {config : ClusterRaftRuntimeConfig} {epoch : NodeEpoch}

/-- The epoch that the inspection reads is the one every node carries. -/
theorem durableEpoch_eq {K : Crypto} {L : Libraries} (h : durableEpoch K L config nodes = .ok epoch)
    {nodeId : Nat} (hnode : nodes[nodeId]? = some node) : node.epoch = epoch := by
  have hmem : node ∈ nodes.toList.map Prod.snd :=
    List.mem_map.2 ⟨(nodeId, node), OrdMap.mem_toList_iff.2 hnode, rfl⟩
  simp only [durableEpoch, bind_eq_ok, orReject_eq_ok, rejectIf_eq_ok, pure_eq_ok] at h
  obtain ⟨catalogSha256, hc, trust, ht, _, -, intent, hi, _, -, _, -, rfl⟩ := h
  have hc := eq_of_agreedOn hc _ (List.mem_map_of_mem hmem)
  have ht := eq_of_agreedOn ht _ (List.mem_map_of_mem hmem)
  have hi := eq_of_agreedOn hi _ (List.mem_map_of_mem hmem)
  rw [ClusterRaftNode.epoch, hc, ← ht, ← hi]

/-- What each selected progress says about the configuration and the durable membership, which
carries the epoch `epoch`. -/
def Selected (config : ClusterRaftRuntimeConfig) (membership : Membership) (epoch : NodeEpoch) :
    DurableMembershipProgress → Prop
  | .pristine => False
  | .settled => True
  | .needsCatalog =>
    membership.configs.length = 1 ∧ config.epoch = epoch ∧
      trustedSubset sameTransportTrustEntry config.members membership.nodes = true
  | .needsTransportTrust =>
    membership.configs.length = 1 ∧
      config.transportTrustGeneration = epoch.trustGeneration + 1 ∧
      config.voterSetGeneration = epoch.voterGeneration ∧
      config.voterSetSha256 = epoch.voterSha256 ∧
      ∀ nodeId ∈ membership.voterIds, nodeId ∈ config.members
  | .needsIntent =>
    membership.configs.length = 1 ∧
      config.transportTrustGeneration = epoch.trustGeneration ∧
      config.transportCatalogSha256 = epoch.catalogSha256 ∧
      config.voterSetGeneration = epoch.voterGeneration + 1 ∧
      trustedSubset sameTransportTrustEntry config.members membership.nodes = true
  | .intentCommitted =>
    membership.configs.length = 1 ∧ config.epoch = epoch ∧ epoch.voterGeneration ≠ 0
  | .joint =>
    membership.configs.length = 2 ∧ config.epoch = epoch ∧
      membership.configs.getLast? = some config.voterIds

variable {progress : DurableMembershipProgress}

/-- The legacy branch is never taken when the durable catalog has a digest. -/
theorem inspectWritten_selected {K : Crypto} {L : Libraries} {membership : Membership}
    (hepoch : ∀ (nodeId : Nat) (node : ClusterRaftNode), membership.nodes[nodeId]? = some node →
      node.epoch = epoch) (hc : epoch.catalogSha256 ≠ [])
    (h : inspectWritten K L config membership = .ok progress) :
    Selected config membership epoch progress := by
  simp only [inspectWritten, bind_eq_ok, rejectIf_eq_ok] at h
  obtain ⟨_, he, durable, hd, _, hconfigs, h⟩ := h
  obtain rfl : durable = epoch := by
    have hn : membership.nodes ≠ ∅ :=
      fun hn => he (.inl (Std.ExtTreeMap.isEmpty_iff.2 hn))
    rw [ne_eq, Std.ExtTreeMap.eq_empty_iff_forall_not_mem, not_forall_not] at hn
    obtain ⟨nodeId, hmem⟩ := hn
    obtain ⟨node, hnode⟩ := OrdMap.exists_lookup hmem
    rw [← durableEpoch_eq hd hnode, hepoch nodeId node hnode]
  by_cases hj : membership.configs.length = 2
  · rw [if_pos hj] at h
    simp only [inspectJoint, bind_eq_ok, rejectIf_eq_ok, pure_eq_ok, not_or, not_not] at h
    obtain ⟨_, ⟨ht, hsha, -, hg, hv, hlast⟩, rfl⟩ := h
    exact ⟨hj, by rw [ClusterRaftRuntimeConfig.epoch, ← ht, ← hsha, ← hg, ← hv], hlast⟩
  · have hu : membership.configs.length = 1 := by
      rw [not_or, not_lt, ← List.length_eq_zero_iff] at hconfigs
      omega
    rw [if_neg hj, if_neg hc] at h
    by_cases ht : durable.trustGeneration = config.transportTrustGeneration
    · rw [if_neg (not_not.2 ht)] at h
      simp only [bind_eq_ok, rejectIf_eq_ok, not_not] at h
      obtain ⟨_, hsha, h⟩ := h
      by_cases hg : durable.voterGeneration = config.voterSetGeneration
      · rw [if_pos hg] at h
        simp only [inspectSameGeneration, bind_eq_ok, rejectIf_eq_ok, not_not] at h
        obtain ⟨_, hv, h⟩ := h
        have hsame : config.epoch = durable := by
          rw [ClusterRaftRuntimeConfig.epoch, ← ht, ← hsha, ← hg, ← hv]
        split at h
        · split at h
          · obtain rfl := pure_eq_ok.1 h
            trivial
          · simp only [bind_eq_ok, rejectIf_eq_ok, pure_eq_ok, not_not] at h
            obtain ⟨_, ⟨-, hs⟩, rfl⟩ := h
            exact ⟨hu, hsame, hs⟩
        · simp only [bind_eq_ok, rejectIf_eq_ok, pure_eq_ok] at h
          obtain ⟨_, hno, _, -, rfl⟩ := h
          exact ⟨hu, hsame, hno⟩
      · rw [if_neg hg] at h
        simp only [inspectNextGeneration, nextGeneration, bind_eq_ok, rejectIf_eq_ok, pure_eq_ok,
          not_not, Bool.not_eq_false, Bool.and_eq_true] at h
        obtain ⟨_, ⟨-, hs⟩, _, ⟨_, -, rfl⟩, _, hnext, _, -, rfl⟩ := h
        exact ⟨hu, ht.symm, hsha.symm, hnext, hs⟩
    · rw [if_pos ht] at h
      simp only [inspectTransportTrust, nextGeneration, bind_eq_ok, rejectIf_eq_ok, pure_eq_ok,
        not_or, not_not] at h
      obtain ⟨_, ⟨_, -, rfl⟩, _, hnext, _, ⟨hg, hv, -⟩, _, -, _, hkept, _, -, rfl⟩ := h
      refine ⟨hu, hnext, hg, hv, fun nodeId hvoter => ?_⟩
      -- the check that transport trust cannot remove a current voter
      by_contra hgone
      refine hkept (List.any_eq_true.2 ⟨nodeId, Std.ExtTreeSet.mem_toList.2 hvoter, ?_⟩)
      rw [Std.ExtTreeMap.mem_iff_contains, Bool.not_eq_true] at hgone
      rw [hgone, Bool.not_false]

/-! ## What a round leaves -/

/-- The two stamped values of an epoch. -/
def NodeEpoch.trust (epoch : NodeEpoch) : Stamped Text :=
  ⟨epoch.trustGeneration, epoch.catalogSha256⟩

def NodeEpoch.voters (epoch : NodeEpoch) : Stamped Text :=
  ⟨epoch.voterGeneration, epoch.voterSha256⟩

/-- An epoch stays, or one of its generations is followed by the next one. -/
def NodeEpoch.Moves (epoch next : NodeEpoch) : Prop :=
  next = epoch ∨
    (next.trustGeneration = epoch.trustGeneration + 1 ∧ next.voters = epoch.voters) ∨
    (next.voterGeneration = epoch.voterGeneration + 1 ∧ next.trust = epoch.trust)

/-- The two generations of an epoch follow those of an earlier one. -/
def NodeEpoch.Follows (epoch later : NodeEpoch) : Prop :=
  epoch.trust.Follows later.trust ∧ epoch.voters.Follows later.voters

theorem NodeEpoch.Moves.follows {next : NodeEpoch} (h : epoch.Moves next) : epoch.Follows next := by
  rcases h with rfl | ⟨ht, hv⟩ | ⟨hv, ht⟩
  · exact ⟨.refl _, .refl _⟩
  · refine ⟨Stamped.follows_of_succ ht, ?_⟩
    rw [hv]
    exact .refl _
  · refine ⟨?_, Stamped.follows_of_succ hv⟩
    rw [ht]
    exact .refl _

/-- The pairs of generations that a move allows. -/
theorem NodeEpoch.Moves.generations {next : NodeEpoch} (h : epoch.Moves next) :
    (next.trustGeneration, next.voterGeneration) ∈ [(epoch.trustGeneration, epoch.voterGeneration),
        (epoch.trustGeneration + 1, epoch.voterGeneration),
        (epoch.trustGeneration, epoch.voterGeneration + 1)] := by
  rcases h with rfl | ⟨ht, hv⟩ | ⟨hv, ht⟩
  · simp
  · have hv : next.voterGeneration = epoch.voterGeneration :=
      congrArg Stamped.generation hv
    simp [ht, hv]
  · have ht : next.trustGeneration = epoch.trustGeneration :=
      congrArg Stamped.generation ht
    simp [ht, hv]

/-- A durable membership whose nodes all carry the epoch `epoch`, every voter among them. -/
structure Membership.Written (membership : Membership) (epoch : NodeEpoch) : Prop where
  nodes : ∀ (nodeId : Nat) (node : ClusterRaftNode), membership.nodes[nodeId]? = some node →
    node.epoch = epoch
  catalog_ne : epoch.catalogSha256 ≠ []
  nodes_ne : ∃ nodeId, nodeId ∈ membership.nodes
  voters : ∀ nodeId ∈ membership.voterIds, nodeId ∈ membership.nodes
  configs_ne : membership.configs ≠ []
  joint : membership.configs.length ≠ 1 → epoch.voterGeneration ≠ 0

/-- A membership carries one epoch. -/
theorem Membership.Written.unique {membership : Membership} {epoch' : NodeEpoch}
    (h : membership.Written epoch) (h' : membership.Written epoch') : epoch = epoch' := by
  obtain ⟨nodeId, hmem⟩ := h.nodes_ne
  obtain ⟨node, hnode⟩ := OrdMap.exists_lookup hmem
  rw [← h.nodes nodeId node hnode, h'.nodes nodeId node hnode]

/-- The configurations stay, or the last one becomes the target and no other set appears. -/
def Membership.VotersMove (membership next : Membership) (target : OrdSet Nat) : Prop :=
  next.configs.getLast? = some target ∧
    ∀ config ∈ next.configs, config ∈ membership.configs ∨ config = target

/-- What a commit leaves of a membership with the epoch `epoch`. -/
def Membership.Commits (config : ClusterRaftRuntimeConfig) (membership : Membership)
    (epoch : NodeEpoch) (next : Membership) : Prop :=
  ∃ epoch', next.Written epoch' ∧ epoch.Moves epoch' ∧
    (next.configs = membership.configs ∨
      config.epoch = epoch ∧ epoch.voterGeneration ≠ 0 ∧
        membership.VotersMove next config.voterIds)

section Round

variable {K : Crypto} {L : Libraries} {R : RaftLibrary} {config : ClusterRaftRuntimeConfig}
  {membership next : Membership} {epoch : NodeEpoch}

theorem catalogSha256_ne_nil (hK : K.CollisionFree) (hv : config.Valid K L) :
    config.epoch.catalogSha256 ≠ [] := by
  show config.transportCatalogSha256 ≠ []
  rw [hv.catalogSha256]
  exact sha256Hex_ne_nil hK _

theorem exists_voter (hv : config.Valid K L) : ∃ voterId, voterId ∈ config.voterIds := by
  obtain ⟨voterId, rest, hlist⟩ := List.exists_cons_of_ne_nil hv.voters_ne
  exact ⟨voterId, Std.ExtTreeSet.mem_toList.1 (by rw [hlist]; exact List.mem_cons_self)⟩

/-- A membership with one configuration, whose voters are among its nodes, and its nodes in the
operator's catalog. -/
theorem written_of_members (hK : K.CollisionFree) (hv : config.Valid K L)
    (hne : ∃ nodeId, nodeId ∈ next.nodes)
    (hvoters : ∀ nodeId ∈ next.voterIds, nodeId ∈ next.nodes) (hu : next.configs.length = 1)
    (hn : ∀ (nodeId : Nat) (node : ClusterRaftNode), next.nodes[nodeId]? = some node →
      config.members[nodeId]? = some node) :
    next.Written config.epoch where
  nodes nodeId node hnode := hv.epoch nodeId node (hn nodeId node hnode)
  catalog_ne := catalogSha256_ne_nil hK hv
  nodes_ne := hne
  voters := hvoters
  configs_ne := by
    rw [← List.length_pos_iff, hu]
    exact Nat.one_pos
  joint hj := absurd hu hj

/-- Setting the operator's catalog over a part of it leaves the catalog. -/
theorem lookup_setNodes
    (hs : trustedSubset sameTransportTrustEntry config.members membership.nodes = true)
    {nodeId : Nat} (hnode : (membership.nodes ∪ config.members)[nodeId]? = some node) :
    config.members[nodeId]? = some node := by
  rw [Std.ExtTreeMap.getElem?_union] at hnode
  cases hm : config.members[nodeId]? with
  | some member => rwa [hm, Option.some_or] at hnode
  | none =>
    rw [hm, Option.none_or] at hnode
    obtain ⟨want, he⟩ := lookup_of_trustedSubset hs hnode
    exact absurd (hm.symm.trans he) (by simp)

/-- The commits of `SetNodes` and `ReplaceAllNodes`: the nodes are of the operator's catalog, and
no voter is missing. -/
theorem commits_of_nodes (hK : K.CollisionFree) (hv : config.Valid K L)
    (hu : membership.configs.length = 1) (hm : epoch.Moves config.epoch)
    (hne : ∃ nodeId, nodeId ∈ nodes)
    (hvoters : ∀ nodeId ∈ membership.voterIds, nodeId ∈ nodes)
    (hn : ∀ (nodeId : Nat) (node : ClusterRaftNode), nodes[nodeId]? = some node →
      config.members[nodeId]? = some node) :
    membership.Commits config epoch ⟨membership.configs, nodes⟩ :=
  ⟨config.epoch, written_of_members hK hv hne hvoters hu hn, hm, .inl rfl⟩

/-- The commits of a change to the configured voters, which are in the catalog already. -/
theorem commits_of_voters (hR : R.Lawful) (hw : membership.Written epoch)
    (he : config.epoch = epoch) (hg : epoch.voterGeneration ≠ 0)
    (hgoal : ∀ nodeId ∈ config.voterIds, nodeId ∈ membership.nodes)
    (hnext : next ∈ R.changeMembership membership (.replaceAllVoters config.voterIds) true) :
    membership.Commits config epoch next := by
  obtain ⟨hn, hconfigs⟩ := hR.replaceAllVoters next hnext
  have hmove : membership.VotersMove next config.voterIds := by
    rcases hconfigs with hconfigs | ⟨-, last, hlast, hconfigs⟩
    · exact ⟨by rw [hconfigs]; rfl, fun c hc => .inr (by simpa [hconfigs] using hc)⟩
    · refine ⟨by rw [hconfigs]; rfl, ?_⟩
      intro c hc
      rw [hconfigs] at hc
      rcases List.mem_cons.1 hc with rfl | hc
      · exact .inl hlast
      · exact .inr (by simpa using hc)
  refine ⟨epoch, ⟨?_, hw.catalog_ne, ?_, ?_, ?_, fun _ => hg⟩, .inl rfl, .inr ⟨he, hg, hmove⟩⟩
  · rw [hn]
    exact hw.nodes
  · rw [hn]
    exact hw.nodes_ne
  · intro nodeId hvoter
    rw [hn]
    obtain ⟨c, hc, hin⟩ := Membership.mem_voterIds.1 hvoter
    rcases hmove.2 c hc with hold | rfl
    · exact hw.voters nodeId (Membership.mem_voterIds.2 ⟨c, hold, hin⟩)
    · exact hgoal nodeId hin
  · intro hnil
    have hlast := hmove.1
    rw [hnil] at hlast
    cases hlast

/-- Adding a node of the operator's catalog keeps the epoch, the configurations and the nodes. -/
theorem written_of_addLearner (hR : R.Lawful) (hv : config.Valid K L)
    (hw : membership.Written epoch) (hepoch : config.epoch = epoch) {voterId : Nat}
    (hnode : config.members[voterId]? = some node)
    (hnext : R.addLearner membership voterId node = some next) :
    next.Written epoch ∧ next.configs = membership.configs ∧ voterId ∈ next.nodes ∧
      ∀ nodeId ∈ membership.nodes, nodeId ∈ next.nodes := by
  obtain rfl := hR.addLearner hnext
  have hkept : ∀ nodeId ∈ membership.nodes,
      nodeId ∈ (∅ : OrdMap Nat ClusterRaftNode).insert voterId node ∪ membership.nodes :=
    fun _ h => Std.ExtTreeMap.mem_union_iff.2 (.inr h)
  have hadded : voterId ∈ (∅ : OrdMap Nat ClusterRaftNode).insert voterId node ∪ membership.nodes :=
    Std.ExtTreeMap.mem_union_iff.2 (.inl ((OrdMap.mem_insert_iff _ _ _ _).2 (.inl rfl)))
  refine ⟨⟨?_, hw.catalog_ne, ⟨voterId, hadded⟩, fun nodeId hvoter => hkept nodeId
    (hw.voters nodeId hvoter), hw.configs_ne, hw.joint⟩, rfl, hadded, hkept⟩
  intro nodeId o ho
  simp only [Std.ExtTreeMap.getElem?_union] at ho
  cases he : membership.nodes[nodeId]? with
  | some old =>
    rw [he, Option.some_or] at ho
    exact hw.nodes nodeId o (he.trans ho)
  | none =>
    rw [he, Option.none_or, OrdMap.lookup_insert] at ho
    split at ho
    · obtain rfl := Option.some.inj ho
      rw [← hepoch]
      exact hv.epoch voterId node hnode
    · exact absurd ho (by simp)

/-- The additions keep the epoch and the configurations, and end with every added node in the
catalog. -/
theorem written_of_addLearners (hR : R.Lawful) (hv : config.Valid K L)
    (he : config.epoch = epoch) (voterIds : List Nat) (hw : membership.Written epoch) :
    (∀ next ∈ (addLearners config R membership voterIds).1,
      next.Written epoch ∧ next.configs = membership.configs) ∧
    ∀ last, (addLearners config R membership voterIds).2 = some last →
      last.Written epoch ∧ last.configs = membership.configs ∧
        (∀ nodeId ∈ voterIds, nodeId ∈ last.nodes) ∧
        ∀ nodeId ∈ membership.nodes, nodeId ∈ last.nodes := by
  induction voterIds generalizing membership with
  | nil =>
    refine ⟨by simp [addLearners], ?_⟩
    intro last hlast
    obtain rfl := Option.some.inj hlast
    exact ⟨hw, rfl, by simp, fun _ h => h⟩
  | cons voterId rest ih =>
    cases hadd : config.members[voterId]?.bind (R.addLearner membership voterId) with
    | none => simp [addLearners, hadd]
    | some next =>
      obtain ⟨node, hnode, hnext⟩ := Option.bind_eq_some_iff.1 hadd
      obtain ⟨hwritten, hconfigs, hadded, hkept⟩ :=
        written_of_addLearner hR hv hw he hnode hnext
      obtain ⟨hcommits, hlast⟩ := ih hwritten
      rw [hconfigs] at hcommits hlast
      simp only [addLearners, hadd]
      refine ⟨?_, fun last hsome => ?_⟩
      · intro o ho
        rcases List.mem_cons.1 ho with rfl | ho
        · exact ⟨hwritten, hconfigs⟩
        · exact hcommits o ho
      · obtain ⟨hlastWritten, hsame, hrest, hlastKept⟩ := hlast last hsome
        refine ⟨hlastWritten, hsame, ?_, fun nodeId h => hlastKept nodeId (hkept nodeId h)⟩
        intro nodeId hmem
        rcases List.mem_cons.1 hmem with rfl | hmem
        · exact hlastKept _ hadded
        · exact hrest nodeId hmem

/-- Every membership that the selected changes commit. -/
theorem selectedCommits_commits (hK : K.CollisionFree) (hR : R.Lawful) (hv : config.Valid K L)
    (hw : membership.Written epoch) (hs : Selected config membership epoch progress)
    {bootstrap isLeader : Bool}
    (hnext : next ∈ selectedCommits config R bootstrap isLeader membership progress) :
    membership.Commits config epoch next := by
  -- a catalog that is set over the durable one keeps its nodes
  have hset : ∀ nodeId ∈ membership.nodes, nodeId ∈ membership.nodes ∪ config.members :=
    fun _ h => Std.ExtTreeMap.mem_union_iff.2 (.inl h)
  have hsetNe : ∃ nodeId, nodeId ∈ membership.nodes ∪ config.members :=
    hw.nodes_ne.imp hset
  have hsetVoters : ∀ nodeId ∈ membership.voterIds, nodeId ∈ membership.nodes ∪ config.members :=
    fun nodeId h => hset nodeId (hw.voters nodeId h)
  cases isLeader with
  | false =>
    cases progress with
    | pristine => exact hs.elim
    | _ => simp [selectedCommits] at hnext
  | true =>
    cases progress with
    | pristine => exact hs.elim
    | settled => simp [selectedCommits] at hnext
    | needsCatalog =>
      obtain ⟨hu, hsame, hsubset⟩ := hs
      obtain rfl := hR.setNodes next hnext
      exact commits_of_nodes hK hv hu (.inl hsame) hsetNe hsetVoters
        fun _ _ => lookup_setNodes hsubset
    | needsIntent =>
      obtain ⟨hu, ht, hsha, hg, hsubset⟩ := hs
      obtain rfl := hR.setNodes next hnext
      refine commits_of_nodes hK hv hu (.inr (.inr ⟨hg, ?_⟩)) hsetNe hsetVoters
        fun _ _ => lookup_setNodes hsubset
      exact congrArg₂ Stamped.mk ht hsha
    | needsTransportTrust =>
      obtain ⟨hu, ht, hg, hsha, hkept⟩ := hs
      obtain rfl := hR.replaceAllNodes next hnext
      refine commits_of_nodes hK hv hu (.inr (.inl ⟨ht, ?_⟩))
        ((exists_voter hv).imp hv.voters_mem) hkept fun _ _ hnode => hnode
      exact congrArg₂ Stamped.mk hg hsha
    | intentCommitted =>
      obtain ⟨hu, hsame, hg⟩ := hs
      obtain ⟨hwritten, hlast⟩ :=
        written_of_addLearners hR hv hsame config.voterIds.toList hw
      simp only [selectedCommits, if_true] at hnext
      rcases List.mem_append.1 hnext with hnext | hnext
      · obtain ⟨hnW, hc⟩ := hwritten next hnext
        exact ⟨epoch, hnW, .inl rfl, .inl hc⟩
      · cases hl : (addLearners config R membership config.voterIds.toList).2 with
        | none => simp [hl] at hnext
        | some last =>
          rw [hl, Option.elim_some] at hnext
          obtain ⟨hlW, hc, hadded, -⟩ := hlast last hl
          obtain ⟨epoch', hnW, hm, hvo⟩ := commits_of_voters hR hlW hsame hg
            (fun nodeId h => hadded nodeId (Std.ExtTreeSet.mem_toList.2 h)) hnext
          refine ⟨epoch', hnW, hm, ?_⟩
          rw [Membership.VotersMove, ← hc]
          exact hvo
    | joint =>
      obtain ⟨hle, hsame, hlast⟩ := hs
      refine commits_of_voters hR hw hsame (hw.joint (by omega)) (fun nodeId h => ?_) hnext
      exact hw.voters nodeId (Membership.mem_voterIds.2 ⟨_, List.mem_of_getLast? hlast, h⟩)

/-- The membership that the bootstrap commits. -/
theorem written_of_initializeRaft (hK : K.CollisionFree) (hR : R.Lawful)
    (hv : config.Valid K L) (hnext : initializeRaft config R = some next) :
    next.Written config.epoch := by
  obtain ⟨hnodes, voters, hconfigs, hmem⟩ := hR.bootstrap hnext
  refine written_of_members hK hv ?_ ?_ (by rw [hconfigs]; rfl) ?_
  · obtain ⟨voterId, hvoter⟩ := exists_voter hv
    obtain ⟨node, hnode⟩ := OrdMap.exists_lookup (hv.voters_mem voterId hvoter)
    have hkept : next.nodes[voterId]? = some node := by
      rw [hnodes, OrdMap.lookup_filter, hnode]
      exact Option.filter_eq_some_iff.2 ⟨rfl, hvoter⟩
    exact ⟨voterId, OrdMap.mem_of_lookup hkept⟩
  · intro nodeId hvoter
    obtain ⟨_, hin, hvoter⟩ := Membership.mem_voterIds.1 hvoter
    rw [hconfigs, List.mem_singleton] at hin
    subst hin
    rw [hnodes]
    exact (hmem nodeId).1 hvoter
  · intro nodeId node hnode
    rw [hnodes, OrdMap.lookup_filter] at hnode
    exact (Option.filter_eq_some_iff.1 hnode).1

end Round

/-! ## Whole runs -/

/-- The durable memberships that runs reach. -/
def StoredMembership.Reached (stored : StoredMembership) : Prop :=
  stored = .empty ∨ stored.logId ≠ none ∧ ∃ epoch, stored.membership.Written epoch

section Run

variable {K : Crypto} {L : Libraries} {R : RaftLibrary}

/-- A round changes nothing, bootstraps an empty store with generation zero, or commits. -/
theorem membershipStep_cases (hK : K.CollisionFree) (hR : R.Lawful) {stored : StoredMembership}
    (hr : stored.Reached) (round : MembershipRound K L) :
    membershipStep K L R stored round = stored ∨ (membershipStep K L R stored round).logId ≠ none ∧
      (stored = .empty ∧ round.config.epoch.trustGeneration = 0 ∧
          round.config.epoch.voterGeneration = 0 ∧
          (membershipStep K L R stored round).membership.Written round.config.epoch ∨
        ∃ epoch, stored.membership.Written epoch ∧ stored.membership.Commits round.config epoch
            (membershipStep K L R stored round).membership) := by
  have hv := valid_facts round.valid
  cases hi : inspectDurableMembership K L round.running round.config stored with
  | error error =>
    left
    rw [membershipStep, hi]
  | ok progress =>
    cases hlast : ((selectedCommits round.config R round.bootstrap round.isLeader
        stored.membership progress).take round.commits).getLast? with
    | none =>
      left
      simp only [membershipStep, hi, hlast]
    | some next =>
      right
      have hstep : membershipStep K L R stored round = ⟨some round.logId, next⟩ := by
        simp only [membershipStep, hi, hlast]
      have hnext : next ∈ selectedCommits round.config R round.bootstrap round.isLeader
          stored.membership progress :=
        List.mem_of_mem_take (List.mem_of_getLast? hlast)
      rw [hstep]
      refine ⟨by simp, ?_⟩
      simp only [inspectDurableMembership, bind_eq_ok, mapError_eq_ok] at hi
      obtain ⟨_, -, hi⟩ := hi
      rcases hr with rfl | ⟨hlog, epoch, hw⟩
      · -- on an empty store only the bootstrap commits anything
        left
        simp only [StoredMembership.empty, bind_eq_ok, pure_eq_ok] at hi
        obtain ⟨_, -, rfl⟩ := hi
        simp only [selectedCommits] at hnext
        split at hnext
        · next hb =>
          exact ⟨rfl, hb.2.2, hb.2.1,
            written_of_initializeRaft hK hR hv (Option.mem_toList.1 hnext)⟩
        · simp at hnext
      · right
        obtain ⟨logId, hlI⟩ := Option.ne_none_iff_exists'.1 hlog
        rw [hlI] at hi
        have hs := inspectWritten_selected hw.nodes hw.catalog_ne hi
        exact ⟨epoch, hw, selectedCommits_commits hK hR hv hw hs hnext⟩

theorem reached_step (hK : K.CollisionFree) (hR : R.Lawful) (stored : StoredMembership)
    (round : MembershipRound K L) (hr : stored.Reached) :
    (membershipStep K L R stored round).Reached := by
  rcases membershipStep_cases hK hR hr round with h | ⟨hlog, ⟨-, -, -, h⟩ | ⟨epoch, -, h⟩⟩
  · rw [h]
    exact hr
  · exact .inr ⟨hlog, _, h⟩
  · obtain ⟨epoch', hw, -, -⟩ := h
    exact .inr ⟨hlog, epoch', hw⟩

theorem reached_run (hK : K.CollisionFree) (hR : R.Lawful) (rounds : List (MembershipRound K L)) :
    (runMembership K L R rounds).Reached :=
  run_invariant (.inl rfl) (reached_step hK hR) rounds

theorem StoredMembership.empty_not_written : ¬ StoredMembership.empty.membership.Written epoch :=
  fun h => h.configs_ne rfl

/-- The epoch of the later membership follows the one of the earlier. -/
def StoredMembership.FollowedBy (stored later : StoredMembership) : Prop :=
  ∀ epoch, stored.membership.Written epoch →
    ∃ epoch', later.membership.Written epoch' ∧ epoch.Follows epoch'

theorem StoredMembership.FollowedBy.refl (stored : StoredMembership) : stored.FollowedBy stored :=
  fun epoch h => ⟨epoch, h, .refl _, .refl _⟩

theorem StoredMembership.FollowedBy.trans (stored mid later : StoredMembership)
    (h : stored.FollowedBy mid) (h' : mid.FollowedBy later) : stored.FollowedBy later := by
  intro epoch hw
  obtain ⟨epoch', hmid, hf⟩ := h epoch hw
  obtain ⟨epoch'', hl, hf'⟩ := h' epoch' hmid
  exact ⟨epoch'', hl, hf.1.trans hf'.1, hf.2.trans hf'.2⟩

theorem followedBy_step (hK : K.CollisionFree) (hR : R.Lawful) (stored : StoredMembership)
    (round : MembershipRound K L) (hr : stored.Reached) :
    stored.FollowedBy (membershipStep K L R stored round) := by
  rcases membershipStep_cases hK hR hr round with
    h | ⟨-, ⟨rfl, -⟩ | ⟨epoch, hw, epoch', hnext, hm, -⟩⟩
  · rw [h]
    exact .refl stored
  · intro epoch hw
    exact absurd hw StoredMembership.empty_not_written
  · intro o ho
    rw [ho.unique hw]
    exact ⟨epoch', hnext, hm.follows⟩

/-- The epochs of a run follow each other. -/
theorem followedBy_run (hK : K.CollisionFree) (hR : R.Lawful)
    (rounds later : List (MembershipRound K L)) :
    (runMembership K L R rounds).FollowedBy (runMembership K L R (rounds ++ later)) :=
  run_related StoredMembership.FollowedBy.refl StoredMembership.FollowedBy.trans (.inl rfl)
    (reached_step hK hR) (followedBy_step hK hR) rounds later

end Run

/-! ## Generation fencing -/

/-- A node that the durable catalog holds. -/
def StoredMembership.Holds (stored : StoredMembership) (node : ClusterRaftNode) : Prop :=
  ∃ nodeId : Nat, stored.membership.nodes[nodeId]? = some node

theorem StoredMembership.Reached.epoch_of_holds {stored : StoredMembership}
    (hr : stored.Reached) (h : stored.Holds node) : stored.membership.Written node.epoch := by
  obtain ⟨nodeId, hnode⟩ := h
  rcases hr with rfl | ⟨-, epoch, hw⟩
  · exact absurd hnode (by simp [StoredMembership.empty])
  · rw [hw.nodes nodeId node hnode]
    exact hw

/-- The configured voters are the only set with the announced digest. -/
theorem digest_iff_voterIds {K : Crypto} {L : Libraries} (hK : K.CollisionFree)
    (round : MembershipRound K L) (he : round.config.epoch = epoch) (hg : epoch.voterGeneration ≠ 0)
    {voters : OrdSet Nat} (hv : ∀ voterId ∈ voters, voterId ≤ u64Max) :
    configuredVoterSetSha256 K epoch.voterGeneration voters = epoch.voterSha256 ↔
      voters = round.config.voterIds := by
  have ha : epoch.voterSha256 =
      configuredVoterSetSha256 K epoch.voterGeneration round.config.voterIds := by
    rw [← he]
    exact (valid_facts round.valid).voterSha256
  rw [ha]
  constructor
  · intro h
    exact configuredVoterSetSha256_injOn hK hg hv round.voterIds_le h
  · rintro rfl
    rfl

/-- Reconfiguration is fenced by generations. Along every run of rounds on an empty store: a round
moves the pair of generations by nothing or one of them by one; the first membership has generations
zero; two nodes with one generation, at any two points of the run, have one digest; the voter
configurations change only towards the one set whose digest the current voter generation has
announced; and every voter is in the catalog. -/
theorem membership_generation_fenced (K : Crypto) (L : Libraries) (R : RaftLibrary)
    (hK : K.CollisionFree) (hR : R.Lawful) (rounds later : List (MembershipRound K L))
    (round : MembershipRound K L) :
    let stored := runMembership K L R rounds
    let next := runMembership K L R (rounds ++ [round])
    let final := runMembership K L R (rounds ++ later)
    (∀ node node', stored.Holds node → next.Holds node' →
      (node'.transportTrustGeneration, node'.voterSetGeneration) ∈
        [(node.transportTrustGeneration, node.voterSetGeneration),
          (node.transportTrustGeneration + 1, node.voterSetGeneration),
          (node.transportTrustGeneration, node.voterSetGeneration + 1)]) ∧
    (stored = .empty → ∀ node', next.Holds node' →
      (node'.transportTrustGeneration, node'.voterSetGeneration) = (0, 0)) ∧
    (∀ node node', stored.Holds node → final.Holds node' →
      (node.transportTrustGeneration = node'.transportTrustGeneration →
        node.transportCatalogSha256 = node'.transportCatalogSha256) ∧
      (node.voterSetGeneration = node'.voterSetGeneration →
        node.voterSetSha256 = node'.voterSetSha256)) ∧
    (stored ≠ .empty → next.membership.configs ≠ stored.membership.configs →
      ∃ target, next.membership.configs.getLast? = some target ∧
        (∀ config ∈ next.membership.configs,
          config ∈ stored.membership.configs ∨ config = target) ∧
        ∀ node, stored.Holds node → ∀ voters : OrdSet Nat, (∀ voterId ∈ voters, voterId ≤ u64Max) →
          (configuredVoterSetSha256 K node.voterSetGeneration voters = node.voterSetSha256 ↔
            voters = target)) ∧
    ∀ nodeId ∈ stored.membership.voterIds, nodeId ∈ stored.membership.nodes := by
  intro stored next final
  have hreached : stored.Reached := reached_run hK hR rounds
  have hreachedNext : next.Reached := reached_run hK hR (rounds ++ [round])
  have hreachedFinal : final.Reached := reached_run hK hR (rounds ++ later)
  have hnext : next = membershipStep K L R stored round := run_snoc _ _ _ _
  have hcases := membershipStep_cases hK hR hreached round
  rw [← hnext] at hcases
  refine ⟨?_, ?_, ?_, ?_, ?_⟩
  · intro node node' hnode hnode'
    have hwritten := hreached.epoch_of_holds hnode
    have hwritten' := hreachedNext.epoch_of_holds hnode'
    have hmoves : node.epoch.Moves node'.epoch := by
      rcases hcases with h | ⟨-, ⟨h, -⟩ | ⟨epoch, hepoch, epoch', hepoch', hmoves, -⟩⟩
      · rw [h] at hwritten'
        exact .inl (hwritten'.unique hwritten)
      · rw [h] at hwritten
        exact absurd hwritten StoredMembership.empty_not_written
      · rwa [hwritten.unique hepoch, hwritten'.unique hepoch']
    exact hmoves.generations
  · intro hempty node' hnode'
    have hwritten' := hreachedNext.epoch_of_holds hnode'
    rcases hcases with h | ⟨-, ⟨-, htrust, hvoters, hbootstrap⟩ | ⟨epoch, hepoch, -⟩⟩
    · rw [h, hempty] at hwritten'
      exact absurd hwritten' StoredMembership.empty_not_written
    · have hepoch' := hwritten'.unique hbootstrap
      rw [← hepoch'] at htrust hvoters
      exact Prod.ext htrust hvoters
    · rw [hempty] at hepoch
      exact absurd hepoch StoredMembership.empty_not_written
  · intro node node' hnode hnode'
    obtain ⟨epoch', hepoch', htrust, hvoters⟩ :=
      followedBy_run hK hR rounds later node.epoch (hreached.epoch_of_holds hnode)
    rw [hepoch'.unique (hreachedFinal.epoch_of_holds hnode')] at htrust hvoters
    exact ⟨htrust.2, hvoters.2⟩
  · intro hne hchanged
    rcases hcases with h | ⟨-, ⟨hempty, -⟩ | ⟨epoch, hepoch, -, -, -, hvoters⟩⟩
    · exact absurd (congrArg (fun s => s.membership.configs) h) hchanged
    · exact absurd hempty hne
    · rcases hvoters with hsame | ⟨hconfig, hgeneration, hlast, hconfigs⟩
      · exact absurd hsame hchanged
      · refine ⟨round.config.voterIds, hlast, hconfigs, ?_⟩
        intro node hnode voters hbound
        obtain rfl := hepoch.unique (hreached.epoch_of_holds hnode)
        exact digest_iff_voterIds hK round hconfig hgeneration hbound
  · intro nodeId hvoter
    rcases hreached with h | ⟨-, epoch, hwritten⟩
    · rw [h] at hvoter
      exact absurd hvoter (by simp [StoredMembership.empty, Membership.voterIds])
    · exact hwritten.voters nodeId hvoter

/-! ### A second voter joins -/

namespace Sample

/-- Digests of 32 bytes for the inputs in a table and longer ones for all others. -/
def tableCrypto (table : List (List UInt8)) : Crypto where
  sha256 bytes := match table.idxOf? bytes with
    | some i => List.replicate 31 0 ++ [UInt8.ofNat i]
    | none => List.replicate 33 0 ++ bytes
  ed25519Verify _ _ _ := true

theorem tableCrypto_collisionFree {table : List (List UInt8)} (hl : table.length ≤ 256) :
    (tableCrypto table).CollisionFree where
  nonempty bytes := by
    simp only [tableCrypto]
    split
    · simp
    · simp
  injective a b h := by
    simp only [tableCrypto] at h
    -- digests of the table have 32 bytes, all others at least 33
    cases ha : table.idxOf? a with
    | none =>
      cases hb : table.idxOf? b with
      | none =>
        rw [ha, hb] at h
        exact List.append_cancel_left h
      | some j =>
        rw [ha, hb] at h
        exact absurd (congrArg List.length h) (by simp)
    | some i =>
      cases hb : table.idxOf? b with
      | none =>
        rw [ha, hb] at h
        exact absurd (congrArg List.length h) (by simp)
      | some j =>
        rw [ha, hb] at h
        obtain ⟨hi, rfl, -⟩ := List.idxOf?_eq_some_iff.1 ha
        obtain ⟨hj, rfl, -⟩ := List.idxOf?_eq_some_iff.1 hb
        have hlast : UInt8.ofNat i = UInt8.ofNat j := by simpa using h
        obtain rfl : i = j := by
          rw [← UInt8.toNat_inj, UInt8.toNat_ofNat', UInt8.toNat_ofNat'] at hlast
          omega
        rfl

def libraries : Libraries where
  serverName _ := .ok ()
  toRfc3339 _ := []

/-- A library that refuses nothing. -/
def raftLibrary : RaftLibrary where
  bootstrap _ nodes := some ⟨[Std.ExtTreeSet.ofList nodes.keys], nodes⟩
  changeMembership membership
    | .replaceAllVoters goal, _ =>
      if goal ∈ membership.configs then [⟨[goal], membership.nodes⟩]
      else match membership.configs.getLast? with
        | some last => [⟨[last, goal], membership.nodes⟩, ⟨[goal], membership.nodes⟩]
        | none => [⟨[goal], membership.nodes⟩]
    | .setNodes nodes, _ => [⟨membership.configs, membership.nodes ∪ nodes⟩]
    | .replaceAllNodes nodes, _ => [⟨membership.configs, nodes⟩]
  addLearner membership nodeId node := some ⟨membership.configs,
    (∅ : OrdMap Nat ClusterRaftNode).insert nodeId node ∪ membership.nodes⟩

theorem raftLibrary_lawful : raftLibrary.Lawful where
  bootstrap h := by
    obtain rfl := Option.some.inj h
    exact ⟨rfl, _, rfl, fun nodeId => by simp⟩
  setNodes next h := List.mem_singleton.1 h
  replaceAllNodes next h := List.mem_singleton.1 h
  replaceAllVoters := by
    intro membership goal next h
    simp only [raftLibrary] at h
    split at h
    · obtain rfl := List.mem_singleton.1 h
      exact ⟨rfl, .inl rfl⟩
    · next hgoal =>
      split at h
      · next last hlast =>
        rcases List.mem_cons.1 h with rfl | h
        · exact ⟨rfl, .inr ⟨hgoal, last, List.mem_of_getLast? hlast, rfl⟩⟩
        · obtain rfl := List.mem_singleton.1 h
          exact ⟨rfl, .inl rfl⟩
      · obtain rfl := List.mem_singleton.1 h
        exact ⟨rfl, .inl rfl⟩
  addLearner h := (Option.some.inj h).symm

/-- A node named by a digit, under an epoch. -/
def raftNode (digit server client : Char) (epoch : NodeEpoch) : ClusterRaftNode where
  endpoint := [digit, ':', '1']
  serverName := [digit]
  tlsCertificateSha256 := hex server
  tlsClientCertificateSha256 := hex client
  tlsCertificateSha256Overlap := []
  tlsClientCertificateSha256Overlap := []
  identityPublicKey := hex digit
  transportCatalogSha256 := epoch.catalogSha256
  transportTrustGeneration := epoch.trustGeneration
  transportPeerCaSha256 := []
  transportTrustOverlapNotAfter := none
  voterSetGeneration := epoch.voterGeneration
  voterSetSha256 := epoch.voterSha256

def raftNodes (epoch : NodeEpoch) : OrdMap Nat ClusterRaftNode :=
  ((∅ : OrdMap Nat ClusterRaftNode).insert 1 (raftNode '1' 'a' 'b' epoch)).insert 2
    (raftNode '2' 'c' 'd' epoch)

def oneVoter : OrdSet Nat := (∅ : OrdSet Nat).insert 1

def twoVoters : OrdSet Nat := oneVoter.insert 2

def publicKey : List UInt8 := List.replicate 32 0x11

/-- The catalog, the second voter set and the member's key have 32-byte digests. -/
def raftCrypto : Crypto :=
  tableCrypto [transportCatalogPayload libraries (raftNodes ⟨0, [], 0, []⟩),
    voterSetPayload 1 twoVoters, publicKey]

def raftGenesis : AuthorityGenesis :=
  ⟨uuid 'c', [⟨uuid '1', raftCrypto.sha256Hex publicKey, hex '1', none, ['1'], ['1'], 1, 1⟩]⟩

/-- The configuration of the first node under a voter generation. -/
def raftConfig (generation : Nat) (voterIds : OrdSet Nat) : ClusterRaftRuntimeConfig :=
  let epoch : NodeEpoch := ⟨0,
    configuredTransportCatalogSha256 raftCrypto libraries (raftNodes ⟨0, [], 0, []⟩),
    generation, configuredVoterSetSha256 raftCrypto generation voterIds⟩
  { nodeId := 1
    members := raftNodes epoch
    transportCatalogSha256 := epoch.catalogSha256
    transportTrustGeneration := 0
    transportTrustOverlapNotAfter := none
    voterIds
    voterSetGeneration := generation
    voterSetSha256 := epoch.voterSha256
    authorityGenesis := raftGenesis
    configuredAuthority := raftGenesis
    transportAuthority := raftGenesis
    serverCertificateSha256 := hex 'a'
    clientCertificateSha256 := hex 'b'
    raft := ⟨['r'], .ok ()⟩
    transport := ⟨1, 1, minFrameBytes, 1⟩ }

set_option maxRecDepth 100000 in
theorem raftConfig_valid :
    isOk ((raftConfig 0 oneVoter).validate raftCrypto libraries default) = true ∧
      isOk ((raftConfig 1 twoVoters).validate raftCrypto libraries default) = true := by
  decide +kernel

/-- A round of the first node. -/
def raftRound (config : ClusterRaftRuntimeConfig)
    (hvalid : isOk (config.validate raftCrypto libraries default) = true)
    (hvoters : config.voterIds.toList.all (· ≤ u64Max) = true) (commits index : Nat) :
    MembershipRound raftCrypto libraries where
  config
  validatedAt := default
  valid := ok_unit_iff.1 (isOk_iff.1 hvalid)
  voterIds_le := by
    intro voterId hvoter
    simpa using List.all_eq_true.1 hvoters voterId (Std.ExtTreeSet.mem_toList.2 hvoter)
  running := .ok ()
  bootstrap := true
  isLeader := true
  commits
  logId := ⟨⟨1, 1⟩, index⟩

/-- The first node bootstraps alone, completes the catalog, announces the second voter set and
stops in the joint configuration. -/
def raftRounds : List (MembershipRound raftCrypto libraries) :=
  [raftRound (raftConfig 0 oneVoter) raftConfig_valid.1 (by decide +kernel) 1 0,
    raftRound (raftConfig 0 oneVoter) raftConfig_valid.1 (by decide +kernel) 1 1,
    raftRound (raftConfig 1 twoVoters) raftConfig_valid.2 (by decide +kernel) 1 2,
    raftRound (raftConfig 1 twoVoters) raftConfig_valid.2 (by decide +kernel) 3 3]

/-- The round that leaves the joint configuration. -/
def raftFinish : MembershipRound raftCrypto libraries :=
  raftRound (raftConfig 1 twoVoters) raftConfig_valid.2 (by decide +kernel) 1 4

/-- The durable membership after a run of rounds. -/
def raftRun (rounds : List (MembershipRound raftCrypto libraries)) : StoredMembership :=
  runMembership raftCrypto libraries raftLibrary rounds

end Sample

set_option maxRecDepth 100000 in
/-- The run of the sample reaches the joint configuration and leaves it under the announced
generation. -/
theorem joint_change_fenced :
    (Sample.raftRun Sample.raftRounds).membership.configs = [Sample.oneVoter, Sample.twoVoters] ∧
      (Sample.raftRun (Sample.raftRounds ++ [Sample.raftFinish])).membership.configs =
        [Sample.twoVoters] ∧
      ∃ target,
        (Sample.raftRun (Sample.raftRounds ++ [Sample.raftFinish])).membership.configs.getLast? =
          some target ∧
        ∀ node, (Sample.raftRun Sample.raftRounds).Holds node →
          ∀ voters : OrdSet Nat, (∀ voterId ∈ voters, voterId ≤ u64Max) →
            (configuredVoterSetSha256 Sample.raftCrypto node.voterSetGeneration voters =
              node.voterSetSha256 ↔ voters = target) := by
  have hbefore : (Sample.raftRun Sample.raftRounds).membership.configs =
      [Sample.oneVoter, Sample.twoVoters] := by
    decide +kernel
  have hafter : (Sample.raftRun (Sample.raftRounds ++ [Sample.raftFinish])).membership.configs =
      [Sample.twoVoters] := by
    decide +kernel
  refine ⟨hbefore, hafter, ?_⟩
  obtain ⟨-, -, -, hvoters, -⟩ := membership_generation_fenced Sample.raftCrypto Sample.libraries
    Sample.raftLibrary (Sample.tableCrypto_collisionFree (by decide)) Sample.raftLibrary_lawful
    Sample.raftRounds [] Sample.raftFinish
  obtain ⟨target, hlast, -, hdigest⟩ := hvoters
    (fun h => absurd hbefore (by rw [Sample.raftRun, h]; simp [StoredMembership.empty]))
    (by rw [← Sample.raftRun, hafter, ← Sample.raftRun, hbefore]; simp)
  exact ⟨target, hlast, hdigest⟩

end AgentOS
