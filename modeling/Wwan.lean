import Wwan.AtcProxy.Commands
import Wwan.AtcProxy.Delivery
import Wwan.AtcProxy.ReadlineLines
import Wwan.FibocomDial.ClientIds
import Wwan.FibocomDial.CtlPairing
import Wwan.FibocomDial.DataCalls
import Wwan.FibocomDial.MnlAttr
import Wwan.FibocomDial.MultiPdn
import Wwan.FibocomDial.ProfileSessions
import Wwan.FibocomDial.SimAnswers
import Wwan.GobiNet.Releases
import Wwan.GobiNet.Responses
import Wwan.GobiNet.RxBounds
import Wwan.GobiNet.Stranded
import Wwan.GobiNet.TxSettings
import Wwan.GobiNet.UserspaceWrite
import Wwan.MbimProxy.Isolation
import Wwan.Mhi.EventSafety
import Wwan.Mhi.FwLoad
import Wwan.Mhi.PmAgree
import Wwan.Mhi.PmVotes
import Wwan.Mhi.Prepare
import Wwan.Mhi.RscChan
import Wwan.Mhi.Tsync
import Wwan.MhiNetdevQuectel.MapCommand
import Wwan.MhiNetdevQuectel.MbimRoundTrip
import Wwan.MhiNetdevQuectel.MbimRxSafety
import Wwan.MhiUci.Lifecycle
import Wwan.MhiUci.Read
import Wwan.MhiUci.Write
import Wwan.Modemband.Bands
import Wwan.Pcie.AdjustRegion
import Wwan.Pcie.EpBackup
import Wwan.Pcie.HostResource
import Wwan.PowerManager.Destroy
import Wwan.PowerManager.Resource
import Wwan.QmiMerge.Bounds
import Wwan.QmiProxy.Delivery
import Wwan.QmiProxy.Framing
import Wwan.QmiProxy.Serialise
import Wwan.QmiWwanF.RxAlias
import Wwan.QmiWwanQ.HeaderFields
import Wwan.QmiWwanQ.Link
import Wwan.QmiWwanQ.TxLatency
import Wwan.QrtrProxy.Bounds
import Wwan.QrtrProxy.Services
import Wwan.QuectelCm.DataCalls
import Wwan.QuectelCm.GetProfile
import Wwan.QuectelCm.LinkState
import Wwan.QuectelCm.MbimAnswers
import Wwan.QuectelCm.MbimConnect
import Wwan.QuectelCm.MbimIds
import Wwan.QuectelCm.MbimParse
import Wwan.QuectelCm.ProxyFraming
import Wwan.QuectelCm.Registration
import Wwan.QuectelCm.RequestsSound
import Wwan.QuectelCm.ResolvConf
import Wwan.Sipa.DownlinkOwned
import Wwan.Sipa.EthXmit
import Wwan.Sipa.FifoHal
import Wwan.Sipa.FlowCtrl
import Wwan.Sipa.NodeDesc
import Wwan.Sipa.RxPacket
import Wwan.Sipa.RxPoll
import Wwan.Sipa.UplinkConserve
import Wwan.Sipc.Bounds
import Wwan.Sipc.ChannelInit
import Wwan.Sipc.SbufPoll
import Wwan.Sipc.SbufWrap
import Wwan.Sipc.SmsgFifo
import Wwan.Sipc.SpoolStream
import Wwan.SmsTool.ReadSms
