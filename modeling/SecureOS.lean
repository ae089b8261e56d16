import SecureOS.AuditSealProofs
import SecureOS.WorkflowRuleProofs
import SecureOS.LauncherFsProofs
import SecureOS.CapHandleSubtreeProofs
import SecureOS.IpcDeliveryProofs
import SecureOS.IpcWakeupProofs
import SecureOS.IpcAuthorityProofs
import SecureOS.SoshMediationProofs
import SecureOS.CapAdminProofs
import SecureOS.BrokerSvcDeleteProofs
import SecureOS.LauncherAuthorityProofs
import SecureOS.AuthPromptProofs
import SecureOS.CodesignProofs
import SecureOS.SofSignedProofs
import SecureOS.NativeElfProofs
import SecureOS.FsFoundProofs
import SecureOS.FsPathExactProofs
import SecureOS.GenTablesProofs
import SecureOS.SchedCapacityProofs
import SecureOS.IpcRefineProofs
import SecureOS.SessionScreenProofs
import SecureOS.EditSaveProofs
import SecureOS.CcCollideProofs
import SecureOS.TcpReceiveProofs
import SecureOS.NetFrameProofs
import SecureOS.HttpProofs
import SecureOS.DnsProofs
import SecureOS.Ed25519Proofs
import SecureOS.WindowHitProofs
import SecureOS.InjectedInputProofs
import SecureOS.InvocationArgsProofs
import SecureOS.SessionTextProofs
import SecureOS.StdioProofs
import SecureOS.StrtolProofs
import SecureOS.AddressSpaceProofs
import SecureOS.CapDenyMarkerProofs
import SecureOS.EventBusProofs
import SecureOS.KernelHeapProofs
import SecureOS.SoshLexerProofs
import SecureOS.ConsoleEnvProofs
import SecureOS.ConsolePathProofs
import SecureOS.SoshExprProofs
