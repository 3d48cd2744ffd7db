import AgentOS.Raft.LogStore
import AgentOS.Raft.Payloads
import AgentOS.Authority.ExactlyOnce
import AgentOS.Authority.Revocation
import AgentOS.Destination.Fleet
import AgentOS.Quota.Scopes
import AgentOS.Quota.Limits
import AgentOS.Quota.Affine
import AgentOS.Connector.Recovery
import AgentOS.Connector.Chain
import AgentOS.Auth.Erasure
import AgentOS.Execution.Turns
import AgentOS.Storage.EncryptionCrashes
import AgentOS.Storage.RetentionExactness
import AgentOS.Policy.Document
import AgentOS.Editing.Transaction
import AgentOS.Scheduler.Fairness
import AgentOS.Scheduler.Inheritance
import AgentOS.Supervisor.Counters
