import CBasics.ChildReaping.ZombieProperties
import CBasics.Fifo.TransferProperties
import CBasics.FileEvents.PathProperties
import CBasics.FileEvents.ReportProperties
import CBasics.FileTransfer.OrderProperties
import CBasics.Forking.LabelProperties
import CBasics.Library.CString
import CBasics.Library.OnesComplement
import CBasics.Library.Room
import CBasics.MemoryResidence.DisplayProperties
import CBasics.MemoryResidence.LockProperties
import CBasics.MemoryResidence.NumberProperties
import CBasics.MessageQueues.PrintProperties
import CBasics.MutexDemo.CountingProperties
import CBasics.Pipes.TransferProperties
import CBasics.PollServer.BroadcastProperties
import CBasics.PollServer.ConversationProperties
import CBasics.PollServer.FairnessProperties
import CBasics.PollServer.ReadinessProperties
import CBasics.PollServer.RegistryProperties
import CBasics.PollServer.ServiceProperties
import CBasics.PollServer.SignalProperties
import CBasics.PortableFloat.OrderProperties
import CBasics.PosixThreads.JoinProperties
import CBasics.RawServer.ChecksumProperties
import CBasics.RawServer.ParityProperties
import CBasics.RecordLocking.GuardProperties
import CBasics.SelectServer.ChatProperties
import CBasics.SelectServer.FormatProperties
import CBasics.SelectServer.IndexProperties
import CBasics.SelectServer.PassProperties
import CBasics.SelectServer.RecvProperties
import CBasics.SelectServer.RegistryProperties
import CBasics.SelectServer.SignalProperties
import CBasics.SelectServer.TimeoutProperties
import CBasics.SemaphoreDemo.FinishProperties
import CBasics.SemaphoreDemo.ThresholdProperties
import CBasics.SendAll.DeliveryProperties
import CBasics.SharedMemory.SegmentProperties
import CBasics.SocketSetup.ClientProperties
import CBasics.SocketSetup.LeakProperties
import CBasics.SocketSetup.ListenerProperties
import CBasics.SocketSetup.PollListenerProperties
import CBasics.SpinLockDemo.ExclusionProperties
import CBasics.TelnetClient.ReadProperties
import CBasics.UserAuthentication.LineProperties
