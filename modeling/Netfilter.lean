import Netfilter.SubstringProofs
import Netfilter.GreedyProofs
import Netfilter.RunProofs
import Netfilter.SimulationProofs
import Netfilter.InterleaveProofs
import Netfilter.ReadAllProofs
import Netfilter.CMemoryProofs
import Netfilter.ExtractProofs
import Netfilter.ExtractBoundsProofs
import Netfilter.ExtractContractProofs
import Netfilter.ConfTextProofs
import Netfilter.AddressProofs
import Netfilter.AddressTextProofs
import Netfilter.NetLinkProofs
import Netfilter.HookProofs
import Netfilter.SessionProofs
import Netfilter.NoteProofs
import Netfilter.LegalProofs
import Netfilter.CommandProofs
import Netfilter.FilterProofs
import Netfilter.ClientProofs
import Netfilter.AttrProofs
import Netfilter.LockingProofs
import Netfilter.SkbProofs
import Netfilter.StartupProofs
import Netfilter.LifecycleProofs
import Netfilter.ReadConfProofs
import Netfilter.DeployedProofs
import Netfilter.FirewallProofs
import Netfilter.UserSocketProofs
import Netfilter.PyclientProofs
import Netfilter.CClientProofs
import Netfilter.ReportProofs
import Netfilter.SharedBuffersProofs
import Netfilter.TrafficProofs
import Netfilter.ReceiverProofs
